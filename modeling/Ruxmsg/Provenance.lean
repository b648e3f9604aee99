import Ruxmsg.Pinned

namespace Ruxmsg

open Library.Machine

variable [Ciborium] [Primitives]

inductive RunMoves (e : Engine) (i : Input) (es : List Effect) : Option Run → Prop
  | gone : RunMoves e i es none
  | kept : RunMoves e i es e.run
  | stepped {run run' frame} (run_eq : e.run = some run) (input : i = .frameReceived frame)
      (steps : Steps e run frame es (.ok (run', none))) : RunMoves e i es (some run')
  | approved {run run'} (run_eq : e.run = some run) (waits : run.step = .sas)
      (purpose : run.purpose = .initial) (approves : Approves e run es (.ok (run', none))) :
      RunMoves e i es (some run')
  | commits {purpose previous helloFrame frame} (run : e.run = none)
      (first : purpose = .initial → previous = none)
      (hello : (e.hello .initiator purpose previous).encode = .ok helloFrame)
      (commit : (commitOf purpose previous helloFrame).encode = .ok frame) (sent : .send frame ∈ es) :
      RunMoves e i es (some (e.initiatorRun purpose previous helloFrame))
  | answers {frame commit helloFrame} (run : ∀ run, e.run = some run → run.role = .initiator)
      (input : i = .frameReceived frame) (invites : e.Invites commit)
      (accepts : AcceptsCommit e frame commit helloFrame) (sent : .send helloFrame ∈ es) :
      RunMoves e i es (some (e.responderRun commit))

theorem Begins.run_moves {e₀ e e' : Engine} {i : Input} {es : List Effect} (prior : List Effect)
    (hi : e.identity = e₀.identity) (he : e.entropy = e₀.entropy) (hr : e.run = e₀.run)
    (h : Begins e es e') : RunMoves e₀ i (prior ++ es) e'.run := by
  have hhello : e.hello = e₀.hello := by
    funext role purpose previous
    simp only [Engine.hello, Engine.nextEphemeral, Engine.nextNonce, hi, he]
  have hrun : e.initiatorRun = e₀.initiatorRun := by
    funext purpose previous helloFrame
    simp only [Engine.initiatorRun, Engine.nextEphemeral, hhello, he]
  cases h with
  | skipped =>
      rw [hr]
      exact .kept
  | began _ hnone _ hh hc =>
      dsimp only
      rw [hrun]
      exact .commits (hr ▸ hnone) (by simp) (hhello ▸ hh) hc
        (List.mem_append_right _ List.mem_cons_self)
  | failed => exact .gone

theorem Moves.run_moves {e e' : Engine} {i : Input} {es : List Effect} (hf : e.Fits)
    (h : Moves e i es e') : RunMoves e i es e'.run := by
  cases h with
  | noted | started | unsent | drained | rejected | ended => exact .kept
  | closed | established | promoted | abandoned | refused => exact .gone
  | committed hp hh hc =>
      have hnone : e.run = none := by
        by_contra h
        obtain ⟨run, hr⟩ := Option.ne_none_iff_exists'.1 h
        have := hf.run_purpose run hr
        rw [hp] at this
        simp at this
      exact .commits hnone (fun _ => rfl) hh hc List.mem_cons_self
  | accepted hp hr hacc hpurpose hprev =>
      refine .answers ?_ rfl (.inl ⟨hpurpose, hp, hprev⟩) hacc List.mem_cons_self
      intro run h
      rw [hr] at h
      cases h
  | stepped _ hr hs => exact .stepped hr rfl hs
  | approved hp hr hs happ => exact .approved hr hs (hf.purpose_initial hr hp) happ
  | began _ h => refine Begins.run_moves [] ?_ ?_ ?_ h <;> rfl
  | answered hp hr hacc hpurpose hsome hprev =>
      refine .answers ?_ rfl (.inr ⟨hpurpose, hp, hsome, hprev⟩) hacc List.mem_cons_self
      intro run h
      rw [hr] at h
      cases h
  | yielded hp hr hrole _ _ _ _ hacc hpurpose hsome hprev =>
      refine .answers ?_ rfl (.inr ⟨hpurpose, hp, hsome, hprev⟩) hacc List.mem_cons_self
      intro run h
      obtain rfl := Option.some.inj (hr.symm.trans h)
      exact hrole
  | sent _ _ _ h => refine Begins.run_moves [_] ?_ ?_ ?_ h <;> rfl
  | delivered _ _ _ _ h => refine Begins.run_moves [_] ?_ ?_ ?_ h <;> rfl

structure Verified (payload : HandshakePayload) (transcript : Transcript) (shared : Bytes 32)
    (keys : SessionKeys) (hash : Bytes 32) : Prop where
  echoes : payload.transcript = transcript
  hash_eq : ∃ encoded, transcript.encode = .ok encoded ∧ hash = transcriptHash encoded
  initiator : verifyTranscriptSignature transcript.initiatorIdentity hash payload.initiatorSignature
    true = .ok ()
  responder : ∀ signature, payload.responderSignature = some signature →
    verifyTranscriptSignature transcript.responderIdentity hash signature false = .ok ()
  keys_eq : keys = deriveSessionKeys shared hash

theorem verified_of_eq_ok {payload : HandshakePayload} {transcript : Transcript} {shared : Bytes 32}
    {approved : Bool} {keys : SessionKeys} {hash : Bytes 32}
    (h : verifyHandshakeForRole payload transcript shared approved = .ok (keys, hash)) :
    Verified payload transcript shared keys hash := by
  simp only [verifyHandshakeForRole, bind_eq_ok, ensure_eq_ok] at h
  obtain ⟨_, -, _, rfl, encoded, hencoded, _, hinitiator, h⟩ := h
  cases hs : payload.responderSignature with
  | none =>
      simp only [hs, bind_eq_ok, pure_eq_ok, Prod.mk.injEq] at h
      obtain ⟨_, -, rfl, rfl⟩ := h
      exact ⟨rfl, ⟨encoded, hencoded, rfl⟩, hinitiator, by simp [hs], rfl⟩
  | some signature =>
      simp only [hs, bind_eq_ok, pure_eq_ok, Prod.mk.injEq] at h
      obtain ⟨_, hresponder, rfl, rfl⟩ := h
      refine ⟨rfl, ⟨encoded, hencoded, rfl⟩, hinitiator, ?_, rfl⟩
      intro signature' hs'
      obtain rfl := Option.some.inj (hs.symm.trans hs')
      exact hresponder

def Received (calls : List Call) (frame : Frame) : Prop :=
  ∃ call ∈ calls, call.input = .frameReceived frame

def HelloRole.other : HelloRole → HelloRole
  | .initiator => .responder
  | .responder => .initiator

omit [Ciborium] [Primitives] in
@[simp] theorem HelloRole.other_other (role : HelloRole) : role.other.other = role := by
  cases role with
  | initiator => rfl
  | responder => rfl

omit [Ciborium] [Primitives] in
/-- The calls of one run, from the one that began it. -/
structure Segment (calls : List Call) (run : Run) (before : List Call) (first : Call)
    (during : List Call) : Prop where
  calls_eq : calls = before ++ first :: during
  fresh : ∀ old, first.pre.run = some old → old.role ≠ run.role
  begins : ∃ begun, first.post.run = some begun ∧ begun.Continues run
  stays : ∀ call ∈ during, ∃ r r', call.pre.run = some r ∧ call.post.run = some r' ∧
    r.Continues run ∧ r'.Continues run

omit [Ciborium] [Primitives] in
theorem Segment.next {calls before during : List Call} {run run' : Run} {first call : Call}
    (h : Segment calls run before first during) (hpre : call.pre.run = some run)
    (hpost : call.post.run = some run') (hc : run.Continues run') :
    Segment (calls ++ [call]) run' before first (during ++ [call]) := by
  refine ⟨?_, ?_, ?_, ?_⟩
  · rw [h.calls_eq, List.append_assoc, List.cons_append]
  · intro old hold
    rw [hc.role]
    exact h.fresh old hold
  · obtain ⟨begun, hb, hbc⟩ := h.begins
    exact ⟨begun, hb, hbc.trans hc⟩
  · intro c hmem
    obtain hmem | hmem := List.mem_append.1 hmem
    · obtain ⟨r, r', hr, hr', hrc, hrc'⟩ := h.stays c hmem
      exact ⟨r, r', hr, hr', hrc.trans hc, hrc'.trans hc⟩
    · obtain rfl := List.mem_singleton.1 hmem
      exact ⟨run, run', hpre, hpost, hc, .refl run'⟩

/-- The COMMIT that begins an initiator's run: a commitment to its HELLO. -/
structure Commits (run : Run) (first : Call) (helloFrame frame : Frame) : Prop where
  hello : run.localHello.encode = .ok helloFrame
  commit : (commitOf run.purpose run.previous helloFrame).encode = .ok frame
  sent : .send frame ∈ first.out

/-- The COMMIT that begins a responder's run: one of the right purpose and
predecessor, which the responder's HELLO answers. -/
structure Answers (run : Run) (first : Call) (commit : CommitPayload) (frame helloFrame : Frame) :
    Prop where
  input : first.input = .frameReceived frame
  decoded : CommitPayload.decode frame = .ok commit
  kept : run.commit = some commit
  purpose : commit.purpose = run.purpose
  previous : commit.previousSessionId = run.previous
  invites : first.pre.Invites commit
  hello : run.localHello.encode = .ok helloFrame
  sent : .send helloFrame ∈ first.out

structure Began (run : Run) (first : Call) : Prop where
  ephemeral : ∃ secret, run.ephemeral = EphemeralKeypair.fromBytes secret
  initiator : run.role = .initiator → ∃ helloFrame frame, Commits run first helloFrame frame
  responder : run.role = .responder → ∃ commit frame helloFrame,
    Answers run first commit frame helloFrame

/-- The HELLO of the peer that one call of a run received and checked. -/
structure Hears (run : Run) (call : Call) (frame : Frame) (remote : HelloPayload) : Prop where
  input : call.input = .frameReceived frame
  decoded : HelloPayload.decode frame = .ok remote
  checked : Matches call.pre run remote run.role.other
  opened : run.role = .responder → ∃ commit, run.commit = some commit ∧
    commitHash frame.payload = commit.commitment
  reveals : run.role = .initiator → ∃ helloFrame, run.localHello.encode = .ok helloFrame ∧
    .send helloFrame ∈ call.out

structure Heard (run : Run) (during : List Call) (remote : HelloPayload) (transcript : Transcript)
    (hash shared : Bytes 32) : Prop where
  transcript_eq : run.transcript = some transcript
  hash_eq : run.hash = some hash
  shared_eq : run.shared = some shared
  remote_eq : run.remoteIdentity = some remote.identityPublicKey
  agrees : run.Agrees remote transcript hash shared
  received : ∃ call ∈ during, ∃ frame, Hears run call frame remote

/-- The AUTH of the peer that gave a run its keys. -/
structure Vouched (run : Run) (during : List Call) (keys : SessionKeys) (auth : HandshakePayload)
    (transcript : Transcript) (shared hash : Bytes 32) : Prop where
  transcript_eq : run.transcript = some transcript
  shared_eq : run.shared = some shared
  verified : verifyHandshakeForRole auth transcript shared true = .ok (keys, hash)
  initiator : run.role = .initiator → auth.stage = 1 ∧ auth.responderSignature.isSome
  responder : run.role = .responder → auth.stage = 0 ∧ auth.responderSignature.isNone
  received : ∃ frame, Received during frame ∧ HandshakePayload.decode frame = .ok auth

structure Evidence (run : Run) (first : Call) (during : List Call) : Prop where
  began : Began run first
  heard : run.step ≠ .hello → run.step ≠ .reveal → ∃ remote transcript hash shared,
    Heard run during remote transcript hash shared
  unheard : run.step = .hello ∨ run.step = .reveal → run.transcript = none ∧ run.keys = none
  initiator : run.step = .authResp ∨ run.step = .confirmResp → run.role = .initiator
  responder : run.step = .authInit ∨ run.step = .confirmInit → run.role = .responder
  early : ∀ frame, run.early = some frame → Received during frame
  vouched : ∀ keys, run.keys = some keys → ∃ auth transcript shared hash,
    Vouched run during keys auth transcript shared hash

section Carrying

variable {run run' : Run} {during : List Call} {first call : Call}

omit [Ciborium] [Primitives] in
theorem Received.next {frame : Frame} (h : Received during frame) (call : Call) :
    Received (during ++ [call]) frame := by
  obtain ⟨c, hc, hf⟩ := h
  exact ⟨c, List.mem_append_left _ hc, hf⟩

omit [Ciborium] [Primitives] in
theorem Received.last {frame : Frame} (h : call.input = .frameReceived frame) :
    Received (during ++ [call]) frame := ⟨call, by simp, h⟩

omit [Ciborium] [Primitives] in
theorem Matches.continues {e : Engine} {remote : HelloPayload} {expectedRole : HelloRole}
    (hc : run.Continues run') (h : Matches e run remote expectedRole) :
    Matches e run' remote expectedRole :=
  ⟨h.role, hc.localHello ▸ h.suite, hc.purpose ▸ h.purpose, hc.previous ▸ h.previous,
    hc.localHello ▸ h.identity_ne, hc.localHello ▸ h.ephemeral_ne, hc.purpose ▸ h.peer⟩

theorem Began.continues (hc : run.Continues run') (h : Began run first) : Began run' first := by
  refine ⟨hc.ephemeral ▸ h.ephemeral, ?_, ?_⟩
  · intro hr
    obtain ⟨helloFrame, frame, hh, hf, hs⟩ := h.initiator (hc.role ▸ hr)
    refine ⟨helloFrame, frame, hc.localHello ▸ hh, ?_, hs⟩
    rw [hc.purpose, hc.previous]
    exact hf
  · intro hr
    obtain ⟨commit, frame, helloFrame, hi, hd, hk, hp, hprev, hfits, hh, hs⟩ :=
      h.responder (hc.role ▸ hr)
    exact ⟨commit, frame, helloFrame, hi, hd, hc.commit ▸ hk, hc.purpose ▸ hp, hc.previous ▸ hprev,
      hfits, hc.localHello ▸ hh, hs⟩

theorem Hears.continues {frame : Frame} {remote : HelloPayload} (hc : run.Continues run')
    (h : Hears run call frame remote) : Hears run' call frame remote := by
  refine ⟨h.input, h.decoded, ?_, ?_, ?_⟩
  · rw [hc.role]
    exact h.checked.continues hc
  · rw [hc.role, hc.commit]
    exact h.opened
  · rw [hc.role, hc.localHello]
    exact h.reveals

omit [Ciborium] [Primitives] in
theorem Run.transcriptWith_continues (hc : run.Continues run') (remote : HelloPayload) :
    run'.transcriptWith remote = run.transcriptWith remote := by
  rw [Run.transcriptWith, Run.transcriptWith, hc.role, hc.localHello]

theorem Run.Agrees.continues {remote : HelloPayload} {transcript : Transcript} {hash shared : Bytes 32}
    (hc : run.Continues run') (h : run.Agrees remote transcript hash shared) :
    run'.Agrees remote transcript hash shared := by
  refine ⟨?_, h.hash_eq, ?_⟩
  · rw [Run.transcriptWith_continues hc]
    exact h.transcript_eq
  · rw [hc.ephemeral]
    exact h.shared_eq

structure Run.Settled (run run' : Run) : Prop where
  continues : run.Continues run'
  transcript : run'.transcript = run.transcript
  hash : run'.hash = run.hash
  shared : run'.shared = run.shared
  remote : run'.remoteIdentity = run.remoteIdentity

theorem Heard.next {remote : HelloPayload} {transcript : Transcript} {hash shared : Bytes 32}
    (hs : run.Settled run') (h : Heard run during remote transcript hash shared) (call : Call) :
    Heard run' (during ++ [call]) remote transcript hash shared := by
  refine ⟨hs.transcript.trans h.transcript_eq, hs.hash.trans h.hash_eq, hs.shared.trans h.shared_eq,
    hs.remote.trans h.remote_eq, h.agrees.continues hs.continues, ?_⟩
  obtain ⟨c, hmem, frame, hh⟩ := h.received
  exact ⟨c, List.mem_append_left _ hmem, frame, hh.continues hs.continues⟩

theorem Vouched.next {keys : SessionKeys} {auth : HandshakePayload} {transcript : Transcript}
    {shared hash : Bytes 32} (hs : run.Settled run')
    (h : Vouched run during keys auth transcript shared hash) (call : Call) :
    Vouched run' (during ++ [call]) keys auth transcript shared hash := by
  refine ⟨hs.transcript.trans h.transcript_eq, hs.shared.trans h.shared_eq, h.verified, ?_, ?_, ?_⟩
  · rw [hs.continues.role]
    exact h.initiator
  · rw [hs.continues.role]
    exact h.responder
  · obtain ⟨frame, hf, hd⟩ := h.received
    exact ⟨frame, hf.next call, hd⟩

theorem Evidence.kept (he : Evidence run first during) (call : Call) :
    Evidence run first (during ++ [call]) := by
  have hs : run.Settled run := ⟨.refl run, rfl, rfl, rfl, rfl⟩
  refine ⟨he.began, ?_, he.unheard, he.initiator, he.responder, ?_, ?_⟩
  · intro h1 h2
    obtain ⟨remote, transcript, hash, shared, h⟩ := he.heard h1 h2
    exact ⟨remote, transcript, hash, shared, h.next hs call⟩
  · intro frame h
    exact (he.early frame h).next call
  · intro keys h
    obtain ⟨auth, transcript, shared, hash, hv⟩ := he.vouched keys h
    exact ⟨auth, transcript, shared, hash, hv.next hs call⟩

theorem Evidence.hears {frame : Frame} {remote : HelloPayload} {transcript : Transcript}
    {hash shared : Bytes 32} (he : Evidence run first during)
    (hs : run.step = .hello ∨ run.step = .reveal)
    (hears : Hears run call frame remote) (agrees : run.Agrees remote transcript hash shared)
    (kept : Option Frame) {step : Step}
    (hstep : step = .sas ∨ step = .authResp ∧ run.role = .initiator ∨
      step = .authInit ∧ run.role = .responder) :
    Evidence { run.agreed remote transcript hash shared with localHelloFrame := kept, step } first
      (during ++ [call]) := by
  have hc : run.Continues
      { run.agreed remote transcript hash shared with localHelloFrame := kept, step } :=
    ⟨rfl, rfl, rfl, rfl, rfl, rfl⟩
  refine ⟨he.began.continues hc, ?_, ?_, ?_, ?_, ?_, ?_⟩
  · intro _ _
    exact ⟨remote, transcript, hash, shared, rfl, rfl, rfl, rfl, agrees.continues hc, call, by simp,
      frame, hears.continues hc⟩
  · intro h
    exfalso
    obtain rfl | ⟨rfl, -⟩ | ⟨rfl, -⟩ := hstep <;> simp at h
  · intro h
    obtain rfl | ⟨rfl, hr⟩ | ⟨rfl, hr⟩ := hstep
    · simp at h
    · exact hr
    · simp at h
  · intro h
    obtain rfl | ⟨rfl, hr⟩ | ⟨rfl, hr⟩ := hstep
    · simp at h
    · simp at h
    · exact hr
  · intro early h
    exact (he.early early h).next call
  · intro keys h
    have hnone : run.keys = none := (he.unheard hs).2
    cases hnone.symm.trans h

theorem Evidence.settled (he : Evidence run first during) (hs : run.Settled run')
    (hstep : run.step ≠ .hello ∧ run.step ≠ .reveal)
    (hstep' : run'.step ≠ .hello ∧ run'.step ≠ .reveal)
    (initiator : run'.step = .authResp ∨ run'.step = .confirmResp → run'.role = .initiator)
    (responder : run'.step = .authInit ∨ run'.step = .confirmInit → run'.role = .responder)
    (early : ∀ frame, run'.early = some frame → run.early = some frame ∨
      call.input = .frameReceived frame)
    (vouched : ∀ keys, run'.keys = some keys → run.keys = some keys ∨
      ∃ auth transcript shared hash,
        Vouched run' (during ++ [call]) keys auth transcript shared hash) :
    Evidence run' first (during ++ [call]) := by
  refine ⟨he.began.continues hs.continues, ?_, ?_, initiator, responder, ?_, ?_⟩
  · intro _ _
    obtain ⟨remote, transcript, hash, shared, h⟩ := he.heard hstep.1 hstep.2
    exact ⟨remote, transcript, hash, shared, h.next hs call⟩
  · rintro (h | h)
    · exact absurd h hstep'.1
    · exact absurd h hstep'.2
  · intro frame h
    obtain h | h := early frame h
    · exact (he.early frame h).next call
    · exact .last h
  · intro keys h
    obtain h | h := vouched keys h
    · obtain ⟨auth, transcript, shared, hash, hv⟩ := he.vouched keys h
      exact ⟨auth, transcript, shared, hash, hv.next hs call⟩
    · exact h

theorem Steps.evidence {e : Engine} {frame : Frame} {es : List Effect}
    (he : Evidence run first during) (hf : run.Fits) (hsound : run.Sound e)
    (hpre : call.pre = e) (hi : call.input = .frameReceived frame)
    (hsent : ∀ effect ∈ es, effect ∈ call.out) (h : Steps e run frame es (.ok (run', none))) :
    Evidence run' first (during ++ [call]) := by
  have hasked {remote : HelloPayload} {helloFrame : Frame} (hrole : run.role = .initiator)
      (hacc : AcceptsHello e run frame remote .responder) (hk : run.localHelloFrame = some helloFrame)
      (hm : .send helloFrame ∈ es) : Hears run call frame remote := by
    refine ⟨hi, hacc.decoded, ?_, ?_, fun _ => ⟨helloFrame, hsound.kept _ hk, hsent _ hm⟩⟩
    · rw [hpre, hrole]
      exact checkRemoteHello_eq_ok.1 hacc.checked
    · intro h
      cases hrole.symm.trans h
  have hanswered {remote : HelloPayload} {commit : CommitPayload} (hrole : run.role = .responder)
      (hacc : AcceptsHello e run frame remote .initiator) (hk : run.commit = some commit)
      (ho : commitHash frame.payload = commit.commitment) : Hears run call frame remote := by
    refine ⟨hi, hacc.decoded, ?_, fun _ => ⟨commit, hk, ho⟩, ?_⟩
    · rw [hpre, hrole]
      exact checkRemoteHello_eq_ok.1 hacc.checked
    · intro h
      cases hrole.symm.trans h
  cases h with
  | helloSas hs hacc hk hag =>
      have hheard := hasked (hf.hello_role hs) hacc hk (by simp)
      exact he.hears (.inl hs) hheard hag none (.inl rfl)
  | helloAuth hs hacc hk hag hp hrole =>
      have hheard := hasked hrole hacc hk (by simp)
      exact he.hears (.inl hs) hheard hag none (.inr (.inl ⟨rfl, hrole⟩))
  | revealSas hs hacc hk ho hag =>
      have hheard := hanswered (hf.reveal_role hs) hacc hk ho
      exact he.hears (.inr hs) hheard hag _ (.inl rfl)
  | revealAuth hs hacc hk ho hag hp hrole =>
      have hheard := hanswered hrole hacc hk ho
      exact he.hears (.inr hs) hheard hag _ (.inr (.inr ⟨rfl, hrole⟩))
  | early hs hrole =>
      refine he.settled ⟨⟨rfl, rfl, rfl, rfl, rfl, rfl⟩, rfl, rfl, rfl, rfl⟩ (by simp [hs]) (by simp [hs])
        (by simp [hs]) (by simp [hs]) ?_ ?_
      · intro frame' h
        obtain rfl := Option.some.inj h
        exact .inr hi
      · intro keys h
        exact .inl h
  | authResp hs hacc hst =>
      have hrole := he.initiator (.inl hs)
      refine he.settled ⟨⟨rfl, rfl, rfl, rfl, rfl, rfl⟩, rfl, rfl, rfl, rfl⟩ (by simp [hs]) (by simp)
        (fun _ => hrole) (by simp) (fun _ h => .inl h) ?_
      intro keys h
      obtain rfl := Option.some.inj h
      refine .inr ⟨_, _, _, _, hacc.transcript_eq, hacc.shared_eq, hacc.verified, fun _ => hst, ?_,
        frame, .last hi, hacc.decoded⟩
      intro h
      cases hrole.symm.trans h
  | authInit hs hacc hst =>
      have hrole := he.responder (.inl hs)
      refine he.settled ⟨⟨rfl, rfl, rfl, rfl, rfl, rfl⟩, rfl, rfl, rfl, rfl⟩ (by simp [hs]) (by simp)
        (by simp) (fun _ => hrole) (fun _ h => .inl h) ?_
      intro keys h
      obtain rfl := Option.some.inj h
      refine .inr ⟨_, _, _, _, hacc.transcript_eq, hacc.shared_eq, hacc.verified, ?_, fun _ => hst,
        frame, .last hi, hacc.decoded⟩
      intro h
      cases hrole.symm.trans h

/-- The approval extends the evidence of a run, by the AUTH that came early. -/
theorem Approves.evidence {e : Engine} {es : List Effect} (he : Evidence run first during)
    (hs : run.step = .sas) (h : Approves e run es (.ok (run', none))) :
    Evidence run' first (during ++ [call]) := by
  cases h with
  | initiator hrole =>
      exact he.settled ⟨⟨rfl, rfl, rfl, rfl, rfl, rfl⟩, rfl, rfl, rfl, rfl⟩ (by simp [hs]) (by simp)
        (fun _ => hrole) (by simp) (fun _ h => .inl h) (fun _ h => .inl h)
  | responder hrole =>
      exact he.settled ⟨⟨rfl, rfl, rfl, rfl, rfl, rfl⟩, rfl, rfl, rfl, rfl⟩ (by simp [hs]) (by simp)
        (by simp) (fun _ => hrole) (fun _ h => .inl h) (fun _ h => .inl h)
  | early hrole _ _ hearly hacc hst =>
      refine he.settled ⟨⟨rfl, rfl, rfl, rfl, rfl, rfl⟩, rfl, rfl, rfl, rfl⟩ (by simp [hs]) (by simp)
        (by simp) (fun _ => hrole) (by simp) ?_
      intro keys h
      obtain rfl := Option.some.inj h
      refine .inr ⟨_, _, _, _, hacc.transcript_eq, hacc.shared_eq, hacc.verified, ?_, fun _ => hst,
        _, (he.early _ hearly).next call, hacc.decoded⟩
      intro h
      rw [hrole] at h
      cases h

end Carrying

/-- Every run in progress has its evidence in the calls made so far. -/
def Engine.Evident (calls : List Call) (e : Engine) : Prop :=
  ∀ run, e.run = some run → ∃ before first during, Segment calls run before first during ∧
    Evidence run first during

theorem Engine.initiatorRun_evidence {e : Engine} {call : Call} {purpose : HandshakePurpose}
    {previous : Option SessionId} {helloFrame frame : Frame}
    (hh : (e.hello .initiator purpose previous).encode = .ok helloFrame)
    (hc : (commitOf purpose previous helloFrame).encode = .ok frame) (hs : .send frame ∈ call.out) :
    Evidence (e.initiatorRun purpose previous helloFrame) call [] := by
  refine ⟨⟨⟨_, rfl⟩, fun _ => ⟨helloFrame, frame, hh, hc, hs⟩, ?_⟩, ?_, fun _ => ⟨rfl, rfl⟩, ?_, ?_, ?_, ?_⟩
  · intro h
    cases h
  · intro h
    exact absurd rfl h
  · rintro (h | h) <;> cases h
  · rintro (h | h) <;> cases h
  · intro _ h
    cases h
  · intro _ h
    cases h

theorem Engine.responderRun_evidence {e : Engine} {call : Call} {commit : CommitPayload}
    {frame helloFrame : Frame} (h : Answers (e.responderRun commit) call commit frame helloFrame) :
    Evidence (e.responderRun commit) call [] := by
  refine ⟨⟨⟨_, rfl⟩, ?_, fun _ => ⟨commit, frame, helloFrame, h⟩⟩, ?_, fun _ => ⟨rfl, rfl⟩, ?_, ?_, ?_, ?_⟩
  · intro h
    cases h
  · intro _ h
    exact absurd rfl h
  · rintro (h | h) <;> cases h
  · rintro (h | h) <;> cases h
  · intro _ h
    cases h
  · intro _ h
    cases h

theorem handle_evident {e : Engine} {calls : List Call} (hf : e.Fits) (hp : e.Pinned)
    (he : e.Evident calls) (i : Input) :
    (e.handle i).1.Evident (calls ++ [record Engine.handle e i]) := by
  intro run' hrun'
  have hmoves := (handle_moves hf i).run_moves hf
  rw [show (e.handle i).1.timeless.run = some run' from hrun'] at hmoves
  have hsent : ∀ effect ∈ (e.handle i).2.filter Effect.visible,
      effect ∈ (record Engine.handle e i).out := fun effect h => List.mem_of_mem_filter h
  generalize hr : some run' = result at hmoves
  cases hmoves with
  | gone => cases hr
  | kept =>
      have hrun : e.run = some run' := hr.symm
      obtain ⟨before, first, during, hseg, hev⟩ := he run' hrun
      exact ⟨before, first, during ++ [_], hseg.next hrun hrun' (.refl run'), hev.kept _⟩
  | stepped hrun hi hs =>
      obtain rfl := Option.some.inj hr
      obtain ⟨before, first, during, hseg, hev⟩ := he _ hrun
      exact ⟨before, first, during ++ [_], hseg.next hrun hrun' hs.continues,
        hs.evidence hev (hf.run_fits _ hrun) (hp.run_sound _ hrun) rfl hi hsent⟩
  | approved hrun hstep hpurpose happ =>
      obtain rfl := Option.some.inj hr
      obtain ⟨before, first, during, hseg, hev⟩ := he _ hrun
      exact ⟨before, first, during ++ [_], hseg.next hrun hrun' happ.continues, happ.evidence hev hstep⟩
  | commits hrun _ hh hc hs =>
      obtain rfl := Option.some.inj hr
      refine ⟨calls, _, [], ⟨rfl, ?_, ⟨_, hrun', .refl _⟩, by simp⟩,
        e.initiatorRun_evidence hh hc (hsent _ hs)⟩
      intro old hold
      cases hrun.symm.trans hold
  | answers hrun hi hinvites hacc hs =>
      obtain rfl := Option.some.inj hr
      refine ⟨calls, _, [], ⟨rfl, ?_, ⟨_, hrun', .refl _⟩, by simp⟩, e.responderRun_evidence
        ⟨hi, hacc.decoded, rfl, rfl, rfl, hinvites, hacc.hello, hsent _ hs⟩⟩
      intro old hold h
      rw [hrun old hold] at h
      cases h

/-- Nothing in a run comes from nowhere, in any reachable state. -/
theorem reachable_evident (role : HelloRole) (identity : IdentityKeypair) (entropy : Entropy)
    (limit : Nat) (inputs : List Input) :
    (final Engine.handle (Engine.configured role identity entropy limit) inputs).Evident
      (trace Engine.handle (Engine.configured role identity entropy limit) inputs) := by
  have h := trace_induction Engine.handle
    (fun (calls : List Call) e => e.Fits ∧ e.Pinned ∧ e.Evident calls)
    (Engine.configured role identity entropy limit) ?_ ?_ inputs
  · exact h.2.2
  · refine ⟨Engine.configured_fits .., Engine.configured_pinned .., ?_⟩
    intro run h
    cases h
  · rintro calls e i ⟨hf, hp, he⟩
    exact ⟨handle_fits hf i, handle_pinned hf hp i, handle_evident hf hp he i⟩

end Ruxmsg

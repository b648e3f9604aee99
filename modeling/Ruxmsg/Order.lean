import Ruxmsg.Provenance
import Ruxmsg.Approval
import Ruxmsg.Reference

namespace Ruxmsg

open Library.Machine

variable [Ciborium] [Primitives]

/-- An initiator's HELLO opens the commitment that began its run, and answers
the HELLO of a responder. -/
structure Revealed (calls : List Call) (call : Call) (run : Run) (frame : Frame) : Prop where
  run_eq : call.pre.run = some run
  role : run.role = .initiator
  committed : ∃ before first during commitFrame commit, Segment calls run before first during ∧
    .send commitFrame ∈ first.out ∧ CommitPayload.decode commitFrame = .ok commit ∧
    commit.commitment = commitHash frame.payload
  heard : ∃ received remote, call.input = .frameReceived received ∧
    HelloPayload.decode received = .ok remote ∧
    Ctx.checkRemoteHello call.pre run remote .responder = .ok ()

/-- A responder's HELLO answers a COMMIT of the right purpose and predecessor. -/
structure Answered (call : Call) (hello : HelloPayload) : Prop where
  invited : ∃ received commit, call.input = .frameReceived received ∧
    CommitPayload.decode received = .ok commit ∧ call.pre.Invites commit ∧
    hello.purpose = commit.purpose ∧ hello.previousSessionId = commit.previousSessionId ∧
    ∃ run, call.post.run = some run ∧ run.role = .responder ∧ run.commit = some commit

/-- The HELLO that opens the commitment which began a responder's run. -/
def Opened (calls : List Call) (run : Run) : Prop :=
  ∃ before first during received commit, Segment calls run before first during ∧
    first.input = .frameReceived received ∧ CommitPayload.decode received = .ok commit ∧
    first.pre.Invites commit ∧
    ∃ call ∈ during, ∃ frame remote, call.input = .frameReceived frame ∧
      HelloPayload.decode frame = .ok remote ∧
      Ctx.checkRemoteHello call.pre run remote .initiator = .ok () ∧
      commitHash frame.payload = commit.commitment

/-- The stage-0 AUTH whose signature verified over the transcript of the run. -/
def Signed (calls : List Call) (run : Run) : Prop :=
  ∃ before first during frame auth transcript encoded, Segment calls run before first during ∧
    Received during frame ∧ HandshakePayload.decode frame = .ok auth ∧ auth.stage = 0 ∧
    run.transcript = some transcript ∧ auth.transcript = transcript ∧
    transcript.encode = .ok encoded ∧
    verifyTranscriptSignature transcript.initiatorIdentity (transcriptHash encoded)
      auth.initiatorSignature true = .ok ()

/-- The initiator's confirmation that verified under the keys of the run. -/
def Confirmed (call : Call) (run : Run) : Prop :=
  ∃ frame confirm keys hash, call.input = .frameReceived frame ∧
    SessionConfirmPayload.decode frame = .ok confirm ∧ run.keys = some keys ∧
    run.hash = some hash ∧ confirm.verifyFrom keys hash .initiator = .ok ()

section Kinds

omit [Primitives] in
theorem HelloPayload.decode_type {frame : Frame} {p : HelloPayload}
    (h : HelloPayload.decode frame = .ok p) : isHandshakeType frame.messageType := by
  simp only [HelloPayload.decode, bind_eq_ok, ensure_eq_ok] at h
  obtain ⟨_, ht, -⟩ := h
  exact ht

omit [Primitives] in
theorem HandshakePayload.decode_type {frame : Frame} {p : HandshakePayload}
    (h : HandshakePayload.decode frame = .ok p) : isHandshakeType frame.messageType := by
  simp only [HandshakePayload.decode, bind_eq_ok, ensure_eq_ok] at h
  obtain ⟨_, ht, -⟩ := h
  exact ht

omit [Primitives] in
theorem SessionConfirmPayload.decode_type {frame : Frame} {p : SessionConfirmPayload}
    (h : SessionConfirmPayload.decode frame = .ok p) : frame.messageType = .sessionConfirm := by
  simp only [SessionConfirmPayload.decode, bind_eq_ok, ensure_eq_ok] at h
  obtain ⟨_, ht, -⟩ := h
  exact ht

omit [Ciborium] [Primitives] in
theorem isHandshakeType_eq {messageType : MessageType} (h : isHandshakeType messageType) :
    messageType ≠ .sessionConfirm ∧ messageType ≠ .close ∧ messageType ≠ .data := by
  cases messageType <;> first | exact absurd h (by decide) | decide

variable {e : Engine} {i : Input} {post : Option Run} {frame : Frame}

/-- A HELLO that a call sends opens the engine's commitment or answers a COMMIT. -/
theorem Sends.hello (rfc : Ciborium.Rfc8949) (hp : e.Pinned) (h : Sends e i post frame)
    {hello : HelloPayload} (hd : HelloPayload.decode frame = .ok hello) :
    (∃ run received remote, e.run = some run ∧ run.step = .hello ∧ i = .frameReceived received ∧
      AcceptsHello e run received remote .responder ∧ run.localHello.encode = .ok frame ∧
      hello = run.localHello) ∨
    (∃ received commit, i = .frameReceived received ∧ e.Invites commit ∧
      AcceptsCommit e received commit frame ∧ post = some (e.responderRun commit) ∧
      hello = e.hello .responder commit.purpose commit.previousSessionId) := by
  obtain ⟨hconfirm, hclose, hdata⟩ := isHandshakeType_eq (HelloPayload.decode_type hd)
  cases h with
  | reveal hr hs hi hacc hk =>
      have he := (hp.run_sound _ hr).kept _ hk
      have := Except.ok.inj (hd.symm.trans (HelloPayload.decode_encode rfc he))
      exact .inl ⟨_, _, _, hr, hs, hi, hacc, he, this⟩
  | commit he => exact absurd hd (CommitPayload.not_hello (CommitPayload.carries_of_encode rfc he) _)
  | answer hi hinv hacc hpost =>
      have := Except.ok.inj (hd.symm.trans (HelloPayload.decode_encode rfc hacc.hello))
      exact .inr ⟨_, _, hi, hinv, hacc, hpost, this⟩
  | auth _ _ he => exact absurd hd (HandshakePayload.not_hello (HandshakePayload.carries_of_encode rfc he) _)
  | response _ _ _ he =>
      exact absurd hd (HandshakePayload.not_hello (HandshakePayload.carries_of_encode rfc he) _)
  | confirm _ _ he => exact absurd (SessionConfirmPayload.encode_type he) hconfirm
  | reply _ _ _ _ he => exact absurd (SessionConfirmPayload.encode_type he) hconfirm
  | close ht => exact absurd ht hclose
  | data _ _ _ henc => exact absurd (DataSender.encrypt_type henc) hdata

theorem Sends.auth_payload (rfc : Ciborium.Rfc8949) (hp : e.Pinned) (h : Sends e i post frame)
    {auth : HandshakePayload} (hd : HandshakePayload.decode frame = .ok auth) :
    ∃ run, post = some run ∧ ((run.role = .initiator ∧ auth.stage = 0) ∨
      (run.step = .confirmInit ∧ run.keys.isSome ∧ auth.stage = 1)) := by
  obtain ⟨hconfirm, hclose, hdata⟩ := isHandshakeType_eq (HandshakePayload.decode_type hd)
  cases h with
  | reveal hr hs hi hacc hk =>
      have he := (hp.run_sound _ hr).kept _ hk
      exact absurd hd (HelloPayload.not_auth (HelloPayload.carries_of_encode rfc he) _)
  | commit he => exact absurd hd (CommitPayload.not_auth (CommitPayload.carries_of_encode rfc he) _)
  | answer _ _ hacc =>
      exact absurd hd (HelloPayload.not_auth (HelloPayload.carries_of_encode rfc hacc.hello) _)
  | auth hpost hrole he =>
      have := Except.ok.inj (hd.symm.trans (HandshakePayload.decode_encode rfc (.inl ⟨rfl, rfl⟩) he))
      exact ⟨_, hpost, .inl ⟨hrole, this ▸ rfl⟩⟩
  | response hpost hk hs he =>
      have := Except.ok.inj (hd.symm.trans (HandshakePayload.decode_encode rfc (.inr ⟨rfl, rfl⟩) he))
      exact ⟨_, hpost, .inr ⟨hs, by rw [hk]; rfl, this ▸ rfl⟩⟩
  | confirm _ _ he => exact absurd (SessionConfirmPayload.encode_type he) hconfirm
  | reply _ _ _ _ he => exact absurd (SessionConfirmPayload.encode_type he) hconfirm
  | close ht => exact absurd ht hclose
  | data _ _ _ henc => exact absurd (DataSender.encrypt_type henc) hdata

theorem Sends.confirm_payload (rfc : Ciborium.Rfc8949) (hp : e.Pinned) (h : Sends e i post frame)
    {confirm : SessionConfirmPayload} (hd : SessionConfirmPayload.decode frame = .ok confirm) :
    ∃ run, e.run = some run ∧ ((run.step = .authResp ∧ confirm.role = .initiator) ∨
      (run.step = .confirmInit ∧ confirm.role = .responder ∧ ∃ received accepted keys hash,
        i = .frameReceived received ∧ AcceptsConfirm run received accepted keys hash .initiator)) := by
  have ht := SessionConfirmPayload.decode_type hd
  have hpurpose : ∀ purpose, frame.messageType ≠ messageTypeForPurpose purpose := by
    intro purpose h
    exact messageTypeForPurpose_ne_sessionConfirm purpose (h.symm.trans ht)
  cases h with
  | reveal hr hs hi hacc hk =>
      exact absurd (HelloPayload.encode_type ((hp.run_sound _ hr).kept _ hk)) (hpurpose _)
  | commit he => exact absurd (CommitPayload.encode_type he) (hpurpose _)
  | answer _ _ hacc => exact absurd (HelloPayload.encode_type hacc.hello) (hpurpose _)
  | auth _ _ he => exact absurd (HandshakePayload.encode_type he) (hpurpose _)
  | response _ _ _ he => exact absurd (HandshakePayload.encode_type he) (hpurpose _)
  | confirm hr hs he =>
      have := Except.ok.inj (hd.symm.trans (SessionConfirmPayload.decode_encode rfc he))
      exact ⟨_, hr, .inl ⟨hs, this ▸ rfl⟩⟩
  | reply hr hs hi hacc he =>
      have := Except.ok.inj (hd.symm.trans (SessionConfirmPayload.decode_encode rfc he))
      exact ⟨_, hr, .inr ⟨hs, this ▸ rfl, _, _, _, _, hi, hacc⟩⟩
  | close h => cases ht.symm.trans h
  | data _ _ _ henc => cases ht.symm.trans (DataSender.encrypt_type henc)

end Kinds

section Requests

theorem Steps.requestSas {e : Engine} {run : Run} {frame : Frame} {es : List Effect}
    {result : Ctx.Stepped} (h : Steps e run frame es result) {words : List String}
    {peer : PeerIdentity} (hm : .requestSas words peer ∈ es) :
    ∃ run', result = .ok (run', none) ∧ run'.step = .sas := by
  cases h with
  | helloSas | revealSas => exact ⟨_, rfl, rfl⟩
  | _ => simp at hm

omit [Primitives] in
theorem requestSas_mem_closing {e : Engine} {cause : CloseCause} {notifyPeer : Option CloseReason}
    {words : List String} {peer : PeerIdentity} :
    .requestSas words peer ∉ e.closing cause notifyPeer := by
  intro h
  simp only [Engine.closing, List.mem_append, List.mem_cons, reduceCtorEq, List.not_mem_nil,
    or_false] at h
  split at h
  next => split at h <;> simp at h
  next => cases h

/-- A call that asks for the SAS decision leaves a run that waits for it. -/
theorem Moves.requestSas {e e' : Engine} {i : Input} {es : List Effect} (h : Moves e i es e')
    {words : List String} {peer : PeerIdentity} (hm : .requestSas words peer ∈ es) :
    ∃ run, e'.run = some run ∧ run.step = .sas := by
  have hlast : ∀ {es : List Effect} {event : Event}, .requestSas words peer ∈ es ++ [.notify event] →
      .requestSas words peer ∈ es := by
    intro es event h
    simpa using h
  have hsteps : ∀ {e : Engine} {run : Run} {frame : Frame} {es : List Effect} {result : Ctx.Stepped},
      Steps e run frame es result → .requestSas words peer ∈ es →
      (∀ run', result ≠ .ok (run', none)) → False := by
    intro e run frame es result hs hm hne
    obtain ⟨run', hr, -⟩ := hs.requestSas hm
    exact hne run' hr
  have hbegins : ∀ {e e' : Engine} {es : List Effect}, Begins e es e' → .requestSas words peer ∉ es := by
    intro e e' es h hm
    cases h <;> simp at hm
  cases h with
  | closed prior =>
      obtain hm | hm := List.mem_append.1 hm
      · cases prior with
        | none => cases hm
        | stepped _ _ _ hs => exact (hsteps hs hm (by simp)).elim
      · exact absurd hm requestSas_mem_closing
  | stepped _ _ hs =>
      obtain ⟨run', hr, hstep⟩ := hs.requestSas hm
      cases hr
      exact ⟨_, rfl, hstep⟩
  | approved _ _ _ happ => cases happ <;> simp at hm
  | established _ _ hs => exact (hsteps hs (hlast hm) (by simp)).elim
  | promoted _ _ hs => exact (hsteps hs (hlast hm) (by simp)).elim
  | abandoned _ habandon =>
      replace hm := hlast hm
      cases habandon with
      | stepped _ _ hs => exact (hsteps hs hm (by simp)).elim
      | refused _ hs => exact (hsteps hs hm (by simp)).elim
      | timeout => cases hm
  | began _ h => exact absurd hm (hbegins h)
  | sent _ _ _ h | delivered _ _ _ _ h =>
      obtain hm | hm := List.mem_cons.1 hm
      · cases hm
      · exact absurd hm (hbegins h)
  | _ => simp at hm

end Requests

section Shown

variable {calls before during : List Call} {run : Run} {first : Call}

theorem Evidence.opened (hseg : Segment calls run before first during)
    (hev : Evidence run first during) (hrole : run.role = .responder) (hs : run.step ≠ .hello)
    (hs' : run.step ≠ .reveal) : Opened calls run := by
  obtain ⟨commit, received, _, hi, hd, hk, -, -, hinv, -⟩ := hev.began.responder hrole
  obtain ⟨remote, _, _, _, -, -, -, -, -, call, hmem, frame, hin, hdec, hm, hopen, -⟩ :=
    hev.heard hs hs'
  obtain ⟨commit', hk', hc⟩ := hopen hrole
  obtain rfl := Option.some.inj (hk.symm.trans hk')
  rw [hrole] at hm
  exact ⟨before, first, during, received, commit, hseg, hi, hd, hinv, call, hmem, frame, remote, hin,
    hdec, checkRemoteHello_eq_ok.2 hm, hc⟩

theorem Evidence.signed (hseg : Segment calls run before first during)
    (hev : Evidence run first during) (hrole : run.role = .responder) (hk : run.keys.isSome) :
    Signed calls run := by
  obtain ⟨keys, hkeys⟩ := Option.isSome_iff_exists.1 hk
  obtain ⟨auth, transcript, shared, hash, ht, -, hv, -, hst, frame, hf, hd⟩ := hev.vouched keys hkeys
  obtain ⟨hechoes, ⟨encoded, he, rfl⟩, hsig, -⟩ := verified_of_eq_ok hv
  exact ⟨before, first, during, frame, auth, transcript, encoded, hseg, hf, hd, (hst hrole).1, ht,
    hechoes, he, hsig⟩

theorem Commits.committed {helloFrame frame : Frame} (rfc : Ciborium.Rfc8949)
    (h : Commits run first helloFrame frame) : CommitPayload.decode frame =
      .ok (commitOf run.purpose run.previous helloFrame) :=
  CommitPayload.decode_encode rfc h.commit

end Shown

/-- The order of every handshake run: no side shows more of its key material
than what it has received so far entitles it to. -/
theorem grind_resistance (rfc : Ciborium.Rfc8949) (role : HelloRole) (identity : IdentityKeypair)
    (entropy : Entropy) (limit : Nat) (inputs : List Input) (i : Input) :
    let start := Engine.configured role identity entropy limit
    let earlier : List Call := trace Engine.handle start inputs
    let call : Call := record Engine.handle (final Engine.handle start inputs) i
    let calls := earlier ++ [call]
    (∀ frame hello, .send frame ∈ call.out → HelloPayload.decode frame = .ok hello →
      (hello.role = .initiator → ∃ run, Revealed earlier call run frame) ∧
      (hello.role = .responder → Answered call hello)) ∧
    (∀ run, call.post.run = some run → run.role = .responder → run.transcript.isSome →
      Opened calls run) ∧
    (∀ words peer, .requestSas words peer ∈ call.out → ∃ run, call.post.run = some run ∧
      (run.role = .responder → Opened calls run)) ∧
    (∀ frame auth, .send frame ∈ call.out → HandshakePayload.decode frame = .ok auth →
      ∃ run, call.post.run = some run ∧ (auth.stage = 1 ↔ run.role = .responder) ∧
        (run.role = .responder → Opened calls run ∧ Signed calls run)) ∧
    (∀ frame confirm, .send frame ∈ call.out → SessionConfirmPayload.decode frame = .ok confirm →
      ∃ run, call.pre.run = some run ∧ confirm.role = run.role ∧
        (run.role = .responder → Opened earlier run ∧ Signed earlier run ∧ Confirmed call run)) := by
  intro start earlier call calls
  have hf : (final Engine.handle start inputs).Fits := reachable_fits role identity entropy limit inputs
  have hp : (final Engine.handle start inputs).Pinned :=
    reachable_pinned role identity entropy limit inputs
  have hpre : call.pre.Evident earlier := reachable_evident role identity entropy limit inputs
  have hpost : call.post.Evident calls := handle_evident hf hp hpre i
  have hmoves := handle_moves hf i
  have hsends : ∀ frame, .send frame ∈ call.out → Sends call.pre i call.post.run frame :=
    fun frame hm => hmoves.sends ((mem_visible rfl _).2 hm)
  have hopened : ∀ run, call.post.run = some run → run.step ≠ .hello → run.step ≠ .reveal →
      run.role = .responder → Opened calls run := by
    intro run hr hs hs' hrole
    obtain ⟨before, first, during, hseg, hev⟩ := hpost run hr
    exact hev.opened hseg hrole hs hs'
  refine ⟨?_, ?_, ?_, ?_, ?_⟩
  · intro frame hello hm hd
    obtain ⟨run, received, remote, hr, hs, hi, hacc, he, rfl⟩ |
      ⟨received, commit, hi, hinv, hacc, hr, rfl⟩ := (hsends frame hm).hello rfc hp hd
    · have hrole : run.role = .initiator := (hf.run_fits run hr).hello_role hs
      obtain ⟨before, first, during, hseg, hev⟩ := hpre run hr
      obtain ⟨helloFrame, commitFrame, hc⟩ := hev.began.initiator hrole
      obtain rfl := Except.ok.inj (hc.hello.symm.trans he)
      refine ⟨fun _ => ⟨run, hr, hrole, ?_, received, remote, hi, hacc.decoded, hacc.checked⟩, ?_⟩
      · exact ⟨before, first, during, commitFrame, _, hseg, hc.sent, hc.committed rfc, rfl⟩
      · intro h
        rw [(hp.run_sound run hr).role, hrole] at h
        cases h
    · refine ⟨?_, fun _ => ⟨received, commit, hi, hacc.decoded, hinv, rfl, rfl, _, hr, rfl, rfl⟩⟩
      intro h
      cases h
  · intro run hr hrole ht
    obtain ⟨before, first, during, hseg, hev⟩ := hpost run hr
    have hstep : ¬ (run.step = .hello ∨ run.step = .reveal) := by
      intro h
      rw [(hev.unheard h).1] at ht
      cases ht
    rw [not_or] at hstep
    exact hev.opened hseg hrole hstep.1 hstep.2
  · intro words peer hm
    obtain ⟨run, hr, hs⟩ := hmoves.requestSas ((mem_visible rfl _).2 hm)
    exact ⟨run, hr, hopened run hr (by simp [hs]) (by simp [hs])⟩
  · intro frame auth hm hd
    obtain ⟨run, hr, ⟨hrole, hstage⟩ | ⟨hs, hk, hstage⟩⟩ := (hsends frame hm).auth_payload rfc hp hd
    · exact ⟨run, hr, by simp [hrole, hstage], by simp [hrole]⟩
    · obtain ⟨before, first, during, hseg, hev⟩ := hpost run hr
      have hrole := hev.responder (.inr hs)
      exact ⟨run, hr, by simp [hrole, hstage],
        fun _ => ⟨hopened run hr (by simp [hs]) (by simp [hs]) hrole, hev.signed hseg hrole hk⟩⟩
  · intro frame confirm hm hd
    obtain ⟨run, hr, ⟨hs, hc⟩ | ⟨hs, hc, received, accepted, keys, hash, hi, hacc⟩⟩ :=
      (hsends frame hm).confirm_payload rfc hp hd
    · obtain ⟨before, first, during, hseg, hev⟩ := hpre run hr
      have hrole := hev.initiator (.inl hs)
      exact ⟨run, hr, hc.trans hrole.symm, by simp [hrole]⟩
    · obtain ⟨before, first, during, hseg, hev⟩ := hpre run hr
      have hrole := hev.responder (.inr hs)
      refine ⟨run, hr, hc.trans hrole.symm, fun _ => ⟨?_, ?_, ?_⟩⟩
      · exact hev.opened hseg hrole (by simp [hs]) (by simp [hs])
      · exact hev.signed hseg hrole (by rw [hacc.keys_eq]; rfl)
      · exact ⟨received, accepted, keys, hash, hi, hacc.decoded, hacc.keys_eq, hacc.hash_eq,
          hacc.verified⟩

end Ruxmsg

namespace Ruxmsg

open Library.Machine Sample

/-- The dialing side opens its commitment, and asks, when the HELLO of the peer arrives. -/
theorem grind_resistance_sample :
    let earlier : List Call := trace Engine.handle dialer (handshake.leftInputs.take 1)
    let call : Call := record Engine.handle (final Engine.handle dialer (handshake.leftInputs.take 1))
      (handshake.leftInputs.getD 1 .start)
    (∃ frame run, .send frame ∈ call.out ∧ frame.messageType = .handshake ∧ Revealed earlier call run frame) ∧
    ∃ words peer run, .requestSas words peer ∈ call.out ∧ call.post.run = some run := by
  intro earlier call
  obtain ⟨hhello, -, hsas, -⟩ := grind_resistance Ciborium.reference_rfc8949 .initiator leftIdentity
    (entropy 100) rekeyMessageLimit (handshake.leftInputs.take 1) (handshake.leftInputs.getD 1 .start)
  constructor
  · have hsent : ((frames call.out).any fun frame => frame.messageType = .handshake ∧
        ((HelloPayload.decode frame).toOption.any fun hello => hello.role = .initiator) = true) = true := by
      decide +kernel
    obtain ⟨frame, hframe, h⟩ := List.any_eq_true.1 hsent
    obtain ⟨htype, hdecoded⟩ := of_decide_eq_true h
    obtain ⟨hello, hhello', hrole⟩ := (Option.any_eq_true _ _).1 hdecoded
    have hmem : .send frame ∈ call.out := mem_frames hframe
    obtain ⟨run, hrun⟩ := (hhello frame hello hmem (eq_ok_of_toOption hhello')).1 (of_decide_eq_true hrole)
    exact ⟨frame, run, hmem, htype, hrun⟩
  · have hasked : questions call.out ≠ [] := by
      decide +kernel
    obtain ⟨question, rest, hquestions⟩ := List.exists_cons_of_ne_nil hasked
    have hmem : .requestSas question.1 question.2 ∈ call.out :=
      mem_questions (hquestions ▸ List.mem_cons_self)
    obtain ⟨run, hrun, -⟩ := hsas _ _ hmem
    exact ⟨_, _, run, hmem, hrun⟩

end Ruxmsg

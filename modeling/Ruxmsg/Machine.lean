import Ruxmsg.Close
import Ruxmsg.Data

namespace Ruxmsg

def lateRekeyFrameGrace : Nat := 8
def rekeyRejectionWarningThreshold : Nat := 3

/-- A source of randomness as its caller sees it: what each call of `fill`
puts into a buffer of the given length. -/
structure Entropy where
  fills : Nat → (length : Nat) → Bytes length
  calls : Nat

def Entropy.fill (entropy : Entropy) (length : Nat) : Bytes length × Entropy :=
  (entropy.fills entropy.calls length, { entropy with calls := entropy.calls + 1 })

abbrev DeadlineId := Nat

inductive DeadlineKind
  | handshakeFrame
  | sasDecision
  | handshakeTotal
  | rekeyDue
  | drain
  deriving DecidableEq

inductive Input
  | start
  | frameReceived (frame : Frame)
  | sasDecision (approved : Bool)
  | localSend (content : List UInt8)
  | localClose (reason : CloseReason)
  | requestRekey
  | timeout (id : DeadlineId)
  | transportClosed
  | malformed (respond : Bool)
  deriving DecidableEq

inductive RekeyFailure
  | timeout
  | identityMismatch
  | invalid
  | repeated
  deriving DecidableEq

inductive SendRejection
  | notActive
  | tooLarge
  deriving DecidableEq

inductive CloseCause
  | localClose
  | peerUnauthenticated (reason : CloseReason)
  | transportLost
  | protocolError
  | authenticationFailure
  | sasRejected
  | timeout
  deriving DecidableEq

inductive Event
  | established (peerIdentity : PeerIdentity)
  | rekeyStarted
  | rekeyCompleted
  | rekeyFailed (failure : RekeyFailure)
  | dataRejected
  | sendRejected (rejection : SendRejection)
  | closed (cause : CloseCause)
  deriving DecidableEq

inductive Effect
  | send (frame : Frame)
  | setDeadline (id : DeadlineId) (kind : DeadlineKind) (after : Nat)
  | cancelDeadline (id : DeadlineId)
  | requestSas (words : List String) (peerIdentity : PeerIdentity)
  | deliver (content : List UInt8)
  | notify (event : Event)
  | closeTransport
  deriving DecidableEq

inductive Phase
  | idle
  | handshaking
  | established
  | closed
  deriving DecidableEq

inductive Step
  | hello
  | reveal
  | sas
  | authResp
  | authInit
  | confirmResp
  | confirmInit
  deriving DecidableEq

structure Session where
  id : SessionId
  peer : PeerIdentity
  sender : DataSender
  receiver : DataReceiver

def Session.new (keys : SessionKeys) (role : HelloRole) (peer : PeerIdentity) : Session :=
  let (sendDir, sendKey, recvDir, recvKey) := match role with
    | .initiator =>
        (DirectionId.initiatorToResponder, keys.initiatorToResponder,
          DirectionId.responderToInitiator, keys.responderToInitiator)
    | .responder =>
        (DirectionId.responderToInitiator, keys.responderToInitiator,
          DirectionId.initiatorToResponder, keys.initiatorToResponder)
  { id := keys.sessionId
    peer
    sender := DataSender.new keys.sessionId sendDir sendKey
    receiver := DataReceiver.new keys.sessionId recvDir recvKey }

structure Run where
  purpose : HandshakePurpose
  role : HelloRole
  previous : Option SessionId
  ephemeral : EphemeralKeypair
  localHello : HelloPayload
  localHelloFrame : Option Frame
  commit : Option CommitPayload
  step : Step
  remoteIdentity : Option PeerIdentity
  shared : Option (Bytes 32)
  transcript : Option Transcript
  hash : Option (Bytes 32)
  keys : Option SessionKeys
  /-- The only frame that may arrive during the local SAS wait. -/
  early : Option Frame

structure Candidate where
  keys : SessionKeys
  peer : PeerIdentity
  role : HelloRole

structure Engine where
  role : HelloRole
  identity : IdentityKeypair
  entropy : Entropy
  phase : Phase
  run : Option Run
  active : Option Session
  draining : Option Session
  deadlines : List (DeadlineId × DeadlineKind)
  nextDeadline : Nat
  messages : Nat
  rekeyMessageLimit : Nat
  rekeyBlocked : Bool
  lateRekeyFrames : Nat
  consecutiveRekeyRejections : Nat

def Engine.new (role : HelloRole) (identity : IdentityKeypair) (entropy : Entropy) : Engine :=
  { role, identity, entropy
    phase := .idle
    run := none
    active := none
    draining := none
    deadlines := []
    nextDeadline := 0
    messages := 0
    rekeyMessageLimit := Ruxmsg.rekeyMessageLimit
    rekeyBlocked := false
    lateRekeyFrames := 0
    consecutiveRekeyRejections := 0 }

def Engine.setRekeyMessageLimit (self : Engine) (limit : Nat) : Engine :=
  { self with rekeyMessageLimit := max limit 1 }

def Engine.peerIdentity (self : Engine) : Option PeerIdentity := self.active.map Session.peer

def Engine.activeSessionId (self : Engine) : Option SessionId := self.active.map Session.id

def Engine.drainingSessionId (self : Engine) : Option SessionId := self.draining.map Session.id

/-- `&mut self` together with the effects queued so far. -/
structure Ctx where
  self : Engine
  out : List Effect

namespace Ctx

def push (c : Ctx) (effect : Effect) : Ctx := { c with out := c.out ++ [effect] }

def update (c : Ctx) (f : Engine → Engine) : Ctx := { c with self := f c.self }

def cancel (c : Ctx) (kind : DeadlineKind) : Ctx :=
  { self := { c.self with deadlines := c.self.deadlines.filter (·.2 ≠ kind) }
    out := c.out ++ (c.self.deadlines.filter (·.2 = kind)).map fun d => .cancelDeadline d.1 }

def arm (c : Ctx) (kind : DeadlineKind) (after : Nat) : Ctx :=
  let c := c.cancel kind
  let id := c.self.nextDeadline
  { self :=
      { c.self with
        nextDeadline := id + 1
        deadlines := c.self.deadlines ++ [(id, kind)] }
    out := c.out ++ [.setDeadline id kind after] }

def cancelAll (c : Ctx) : Ctx :=
  { self := { c.self with deadlines := [] }
    out := c.out ++ c.self.deadlines.map fun d => .cancelDeadline d.1 }

def rearmFrameDeadline (c : Ctx) (purpose : HandshakePurpose) (step : Step) : Ctx :=
  let c := c.cancel .handshakeFrame
  let bounded : Bool := match purpose with
    | .rekey => true
    | .initial => step = .hello ∨ step = .reveal ∨ step = .confirmResp ∨ step = .confirmInit
  if bounded then c.arm .handshakeFrame handshakeFrameTimeoutSecs else c

end Ctx

/-- Structurally invalid DATA ends the session; other failures only drop the frame. -/
def isMalformed : Error → Bool
  | .encoding _ | .nonCanonicalEncoding | .invalidPayloadShape | .invalidMapKey
  | .duplicateMapKey _ | .invalidLength _ _ _ | .invalidFrameLength _ | .truncatedFrame
  | .dataTooLarge => true
  | _ => false

def initialFailure : Error → CloseCause × CloseReason
  | .sasRejected => (.sasRejected, .authenticationFailure)
  | .signatureInvalid | .confirmationInvalid => (.authenticationFailure, .authenticationFailure)
  | .identityMismatch => (.authenticationFailure, .identityChanged)
  | _ => (.protocolError, .protocolError)

def rekeyFailure : Error → RekeyFailure
  | .transportTimeout => .timeout
  | .identityMismatch => .identityMismatch
  | _ => .invalid

def Run.candidate (run : Run) (keys : SessionKeys) : Result Candidate := do
  let peer ← okOr run.remoteIdentity .invalidStateTransition
  return { keys, peer, role := run.role }

def Transcript.handshakePayload (t : Transcript) (stage : Nat) (initiatorSignature : Bytes 64)
    (responderSignature : Option (Bytes 64)) : HandshakePayload :=
  { purpose := t.purpose
    stage
    cipherSuite := t.cipherSuite
    initiatorIdentity := t.initiatorIdentity
    responderIdentity := t.responderIdentity
    initiatorEphemeral := t.initiatorEphemeral
    responderEphemeral := t.responderEphemeral
    initiatorNonce := t.initiatorNonce
    responderNonce := t.responderNonce
    previousSessionId := t.previousSessionId
    initiatorSignature
    responderSignature }

def Run.transcriptWith (run : Run) (remote : HelloPayload) : Result Transcript :=
  match run.role with
  | .initiator => transcriptFromHellos run.localHello remote
  | .responder => transcriptFromHellos remote run.localHello

/-- The transcript, its hash and the shared secret that both HELLOs settle. -/
def Run.agreement [Ciborium] [Primitives] (run : Run) (remote : HelloPayload) :
    Result (Transcript × Bytes 32 × Bytes 32) := do
  let transcript ← run.transcriptWith remote
  let hash := transcriptHash (← transcript.encode)
  let shared ← run.ephemeral.sharedSecret remote.ephemeralPublicKey
  return (transcript, hash, shared)

namespace Ctx

variable [Ciborium]

def terminate (c : Ctx) (cause : CloseCause) (notifyPeer : Option CloseReason) : Ctx :=
  let c := c.cancelAll
  let c := match notifyPeer with
    | some reason =>
        match ClosePayload.encode { sessionId := c.self.activeSessionId, reason, detail := none } with
        | .ok frame => c.push (.send frame)
        | .error _ => c
    | none => c
  let c := (c.push (.notify (.closed cause))).push .closeTransport
  c.update fun self => { self with run := none, active := none, draining := none, phase := .closed }

def failInitial (c : Ctx) (error : Error) : Ctx :=
  let (cause, reason) := initialFailure error
  c.terminate cause (some reason)

/-- A failed rekey discards only the candidate. -/
def failRekey (c : Ctx) (error : Error) : Ctx :=
  let c := c.update fun self => { self with run := none, lateRekeyFrames := lateRekeyFrameGrace }
  let c := (c.cancel .handshakeFrame).cancel .handshakeTotal
  let c := c.update fun self => { self with rekeyBlocked := true }
  let c := c.arm .rekeyDue rekeyRetrySecs
  c.push (.notify (.rekeyFailed (rekeyFailure error)))

def noteRekeyRejection (c : Ctx) : Ctx :=
  if c.self.consecutiveRekeyRejections < rekeyRejectionWarningThreshold then
    let c := c.update fun self =>
      { self with consecutiveRekeyRejections := self.consecutiveRekeyRejections + 1 }
    if c.self.consecutiveRekeyRejections = rekeyRejectionWarningThreshold then
      c.push (.notify (.rekeyFailed .repeated))
    else c
  else c

variable [Primitives]

def completeInitial (c : Ctx) (candidate : Candidate) : Ctx :=
  let c := ((c.cancel .handshakeFrame).cancel .sasDecision).cancel .handshakeTotal
  let c := c.update fun self =>
    { self with
      active := some (Session.new candidate.keys candidate.role candidate.peer)
      phase := .established
      messages := 0
      lateRekeyFrames := 0
      consecutiveRekeyRejections := 0 }
  let c := c.arm .rekeyDue rekeyIntervalSecs
  c.push (.notify (.established candidate.peer))

def completeRekey (c : Ctx) (candidate : Candidate) : Ctx :=
  let valid := c.self.active.any fun active =>
    active.peer = candidate.peer ∧ active.id ≠ candidate.keys.sessionId
  if ¬ valid then c.failRekey .identityMismatch
  else
    let c := (c.cancel .handshakeFrame).cancel .handshakeTotal
    let replacement := Session.new candidate.keys candidate.role candidate.peer
    -- a second rekey inside the drain window replaces the older drainee
    let c := c.update fun self => { self with draining := self.active, active := some replacement }
    let c := c.arm .drain rekeyDrainTimeoutSecs
    let c := c.arm .rekeyDue rekeyIntervalSecs
    let c := c.update fun self =>
      { self with
        messages := 0
        rekeyBlocked := false
        lateRekeyFrames := 0
        consecutiveRekeyRejections := 0 }
    c.push (.notify .rekeyCompleted)

def freshKeys (c : Ctx) : (EphemeralKeypair × Bytes 16) × Ctx :=
  let (secret, entropy) := c.self.entropy.fill 32
  let (nonce, entropy) := entropy.fill 16
  ((EphemeralKeypair.fromBytes secret, nonce), c.update fun self => { self with entropy })

def startInitiatorRun (c : Ctx) (purpose : HandshakePurpose) (previous : Option SessionId) :
    Result Unit × Ctx :=
  let ((ephemeral, nonce), c) := c.freshKeys
  let localHello : HelloPayload :=
    { cipherSuite := 1
      purpose
      role := .initiator
      identityPublicKey := c.self.identity.identity
      ephemeralPublicKey := ephemeral.publicKey
      nonce
      previousSessionId := previous }
  match localHello.encode with
  | .error error => (.error error, c)
  | .ok helloFrame =>
      let commit : CommitPayload :=
        { cipherSuite := 1
          purpose
          commitment := commitHash helloFrame.payload
          previousSessionId := previous }
      match commit.encode with
      | .error error => (.error error, c)
      | .ok frame =>
          let run : Run :=
            { purpose
              role := .initiator
              previous
              ephemeral
              localHello
              localHelloFrame := some helloFrame
              commit := none
              step := .hello
              remoteIdentity := none
              shared := none
              transcript := none
              hash := none
              keys := none
              early := none }
          (.ok (), (c.push (.send frame)).update fun self => { self with run := some run })

def startResponderRun (c : Ctx) (commit : CommitPayload) (emitRekeyStarted : Bool) :
    Result Unit × Ctx :=
  let ((ephemeral, nonce), c) := c.freshKeys
  let localHello : HelloPayload :=
    { cipherSuite := commit.cipherSuite
      purpose := commit.purpose
      role := .responder
      identityPublicKey := c.self.identity.identity
      ephemeralPublicKey := ephemeral.publicKey
      nonce
      previousSessionId := commit.previousSessionId }
  match localHello.encode with
  | .error error => (.error error, c)
  | .ok frame =>
      let purpose := commit.purpose
      let run : Run :=
        { purpose
          role := .responder
          previous := commit.previousSessionId
          ephemeral
          localHello
          localHelloFrame := none
          commit := some commit
          step := .reveal
          remoteIdentity := none
          shared := none
          transcript := none
          hash := none
          keys := none
          early := none }
      let c := (c.push (.send frame)).update fun self => { self with run := some run }
      let c := if purpose = .rekey then
          let c := c.arm .handshakeTotal handshakeTotalTimeoutSecs
          if emitRekeyStarted then c.push (.notify .rekeyStarted) else c
        else c
      (.ok (), c.rearmFrameDeadline purpose .reveal)

def start (c : Ctx) : Ctx :=
  if c.self.phase ≠ .idle then c
  else
    let c := c.update fun self => { self with phase := .handshaking }
    let c := c.arm .handshakeTotal handshakeTotalTimeoutSecs
    if c.self.role = .initiator then
      match c.startInitiatorRun .initial none with
      | (.error error, c) => c.failInitial error
      | (.ok (), c) => c.rearmFrameDeadline .initial .hello
    else c.arm .handshakeFrame handshakeFrameTimeoutSecs

def checkRemoteHello (self : Engine) (run : Run) (remote : HelloPayload) (expectedRole : HelloRole) :
    Result Unit := do
  if remote.role ≠ expectedRole ∨ remote.cipherSuite ≠ run.localHello.cipherSuite ∨
      remote.purpose ≠ run.purpose ∨ remote.previousSessionId ≠ run.previous ∨
      remote.identityPublicKey = run.localHello.identityPublicKey ∨
      remote.ephemeralPublicKey = run.localHello.ephemeralPublicKey then
    .error .invalidHandshake
  if run.purpose = .rekey then
    let peer ← okOr (self.active.map Session.peer) .invalidStateTransition
    if remote.identityPublicKey ≠ peer then .error .identityMismatch
  return ()

def verifyAuth (run : Run) (auth : HandshakePayload) : Result (SessionKeys × Bytes 32) := do
  let transcript ← okOr run.transcript .invalidStateTransition
  let shared ← okOr run.shared .invalidStateTransition
  verifyHandshakeForRole auth transcript shared true

/-- A run taken through one step: an error, or the run as it is left, with
the candidate of a completed handshake. -/
abbrev Stepped := Result (Run × Option Candidate)

def stepAuthResp (c : Ctx) (run : Run) (frame : Frame) : Stepped × Ctx :=
  let checked : Result (SessionKeys × Frame) := do
    let auth ← HandshakePayload.decode frame
    ensure (auth.stage = 1 ∧ auth.responderSignature.isSome) .invalidHandshake
    let (keys, hash) ← verifyAuth run auth
    let confirm : SessionConfirmPayload :=
      { sessionId := keys.sessionId
        role := .initiator
        confirmation := confirmationMac keys.confirmationKey hash true }
    return (keys, ← confirm.encode)
  match checked with
  | .error error => (.error error, c)
  | .ok (keys, confirm) =>
      let run := { run with keys := some keys, step := .confirmResp }
      (.ok (run, none), (c.push (.send confirm)).rearmFrameDeadline run.purpose run.step)

def stepAuthInit (c : Ctx) (run : Run) (frame : Frame) : Stepped × Ctx :=
  let checked : Result (SessionKeys × Frame) := do
    let auth ← HandshakePayload.decode frame
    ensure (auth.stage = 0 ∧ auth.responderSignature.isNone) .invalidHandshake
    let (keys, hash) ← verifyAuth run auth
    let transcript ← okOr run.transcript .invalidStateTransition
    let response := transcript.handshakePayload 1 auth.initiatorSignature
      (some (c.self.identity.signTranscript hash false))
    return (keys, ← response.encode)
  match checked with
  | .error error => (.error error, c)
  | .ok (keys, response) =>
      let run := { run with keys := some keys, step := .confirmInit }
      (.ok (run, none), (c.push (.send response)).rearmFrameDeadline run.purpose run.step)

/-- SAS approved (initial) or identity continuity established (rekey). A
buffered frame goes to the `AuthInit` arm, since the step has just been set. -/
def afterApproval (c : Ctx) (run : Run) : Stepped × Ctx :=
  let known : Result (Bytes 32 × Transcript) := do
    let hash ← okOr run.hash .invalidStateTransition
    let transcript ← okOr run.transcript .invalidStateTransition
    return (hash, transcript)
  match known with
  | .error error => (.error error, c)
  | .ok (hash, transcript) =>
      match run.role with
      | .initiator =>
          let auth := transcript.handshakePayload 0 (c.self.identity.signTranscript hash true) none
          match auth.encode with
          | .error error => (.error error, c)
          | .ok frame =>
              let run := { run with step := .authResp }
              (.ok (run, none), (c.push (.send frame)).rearmFrameDeadline run.purpose run.step)
      | .responder =>
          let run := { run with step := .authInit }
          match run.early with
          | some early => c.stepAuthInit { run with early := none } early
          | none => (.ok (run, none), c.rearmFrameDeadline run.purpose run.step)

def afterHellos (c : Ctx) (run : Run) (remote : HelloPayload) : Stepped × Ctx :=
  match run.agreement remote with
  | .error error => (.error error, c)
  | .ok (transcript, hash, shared) =>
      let run :=
        { run with
          shared := some shared
          transcript := some transcript
          hash := some hash
          remoteIdentity := some remote.identityPublicKey }
      match run.purpose with
      | .initial =>
          let c := (c.cancel .handshakeFrame).arm .sasDecision sasDecisionTimeoutSecs
          (.ok ({ run with step := .sas }, none),
            c.push (.requestSas (sasWords hash) remote.identityPublicKey))
      | .rekey => c.afterApproval run

def stepHello (c : Ctx) (run : Run) (frame : Frame) : Stepped × Ctx :=
  let checked : Result (HelloPayload × Frame) := do
    let remote ← HelloPayload.decode frame
    checkRemoteHello c.self run remote .responder
    return (remote, ← okOr run.localHelloFrame .invalidStateTransition)
  match checked with
  | .error error => (.error error, c)
  | .ok (remote, reveal) =>
      (c.push (.send reveal)).afterHellos { run with localHelloFrame := none } remote

def stepReveal (c : Ctx) (run : Run) (frame : Frame) : Stepped × Ctx :=
  let checked : Result HelloPayload := do
    let remote ← HelloPayload.decode frame
    checkRemoteHello c.self run remote .initiator
    let commit ← okOr run.commit .invalidStateTransition
    ensure (commitHash frame.payload = commit.commitment) .invalidHandshake
    return remote
  match checked with
  | .error error => (.error error, c)
  | .ok remote => c.afterHellos run remote

def stepSas (c : Ctx) (run : Run) (frame : Frame) : Stepped × Ctx :=
  if run.role = .responder ∧ run.early.isNone ∧ frame.messageType = .handshake then
    (.ok ({ run with early := some frame }, none), c)
  else (.error .invalidStateTransition, c)

/-- A confirmation from `expectedRole` under the keys and hash of the run. -/
def checkConfirm (run : Run) (frame : Frame) (expectedRole : HelloRole) :
    Result (SessionKeys × Bytes 32) := do
  let confirm ← SessionConfirmPayload.decode frame
  let keys ← okOr run.keys .invalidStateTransition
  let hash ← okOr run.hash .invalidStateTransition
  confirm.verifyFrom keys hash expectedRole
  return (keys, hash)

def finish (c : Ctx) (run : Run) (keys : SessionKeys) : Stepped × Ctx :=
  match run.candidate keys with
  | .error error => (.error error, c)
  | .ok candidate => (.ok ({ run with keys := none }, some candidate), c)

def stepConfirmResp (c : Ctx) (run : Run) (frame : Frame) : Stepped × Ctx :=
  match checkConfirm run frame .responder with
  | .error error => (.error error, c)
  | .ok (keys, _) => c.finish run keys

def stepConfirmInit (c : Ctx) (run : Run) (frame : Frame) : Stepped × Ctx :=
  let checked : Result (SessionKeys × Frame) := do
    let (keys, hash) ← checkConfirm run frame .initiator
    let reply : SessionConfirmPayload :=
      { sessionId := keys.sessionId
        role := .responder
        confirmation := confirmationMac keys.confirmationKey hash false }
    return (keys, ← reply.encode)
  match checked with
  | .error error => (.error error, c)
  | .ok (keys, reply) => (c.push (.send reply)).finish run keys

def stepRun (c : Ctx) (run : Run) (frame : Frame) : Stepped × Ctx :=
  match run.step with
  | .hello => c.stepHello run frame
  | .reveal => c.stepReveal run frame
  | .sas => c.stepSas run frame
  | .authResp => c.stepAuthResp run frame
  | .authInit => c.stepAuthInit run frame
  | .confirmResp => c.stepConfirmResp run frame
  | .confirmInit => c.stepConfirmInit run frame

/-- Takes the run out, steps it, and puts it back unless it failed or ended. -/
def driveRun (c : Ctx) (frame : Frame) : Result (Option Candidate) × Ctx :=
  match c.self.run with
  | none => (.error .invalidStateTransition, c)
  | some run =>
      match (c.update fun self => { self with run := none }).stepRun run frame with
      | (.error error, c) => (.error error, c)
      | (.ok (_, some candidate), c) => (.ok (some candidate), c)
      | (.ok (run, none), c) => (.ok none, c.update fun self => { self with run := some run })

def acceptFirstCommit (c : Ctx) (frame : Frame) : Result Unit × Ctx :=
  match CommitPayload.decode frame with
  | .error error => (.error error, c)
  | .ok commit =>
      if commit.cipherSuite ≠ 1 ∨ commit.purpose ≠ .initial ∨ commit.previousSessionId.isSome then
        (.error .invalidHandshake, c)
      else c.startResponderRun commit true

def onCloseFrame (c : Ctx) (frame : Frame) : Ctx :=
  match ClosePayload.decode frame with
  | .error _ => c.terminate .protocolError (some .protocolError)
  | .ok close =>
      if c.self.phase = .handshaking then
        -- no session exists yet, so only an id-less CLOSE is meaningful
        if close.sessionId.isNone then c.terminate (.peerUnauthenticated close.reason) none else c
      else match close.sessionId with
        | none => c
        | some id =>
            if some id = c.self.activeSessionId then
              c.terminate (.peerUnauthenticated close.reason) none
            else if some id = c.self.drainingSessionId then
              (c.update fun self => { self with draining := none }).cancel .drain
            else c

def onFrameHandshaking (c : Ctx) (frame : Frame) : Ctx :=
  if frame.messageType = .close then c.onCloseFrame frame
  else
    let (result, c) : Result (Option Candidate) × Ctx :=
      if c.self.run.isNone then
        match c.acceptFirstCommit frame with
        | (.error error, c) => (.error error, c)
        | (.ok (), c) => (.ok none, c)
      else c.driveRun frame
    match result with
    | .ok (some candidate) => c.completeInitial candidate
    | .ok none => c
    | .error error => c.failInitial error

def onSas (c : Ctx) (approved : Bool) : Ctx :=
  match c.self.run with
  | none => c
  | some run =>
      if c.self.phase ≠ .handshaking ∨ run.step ≠ .sas then c
      else
        let c := c.cancel .sasDecision
        if ¬ approved then c.terminate .sasRejected (some .authenticationFailure)
        else
          match (c.update fun self => { self with run := none }).afterApproval run with
          | (.ok (_, some candidate), c) => c.completeInitial candidate
          | (.ok (run, none), c) => c.update fun self => { self with run := some run }
          | (.error error, c) => c.failInitial error

def beginRekey (c : Ctx) : Ctx :=
  if c.self.phase ≠ .established ∨ c.self.run.isSome then c
  else match c.self.activeSessionId with
    | none => c
    | some previous =>
        match c.startInitiatorRun .rekey (some previous) with
        | (.error error, c) => c.failRekey error
        | (.ok (), c) =>
            let c := c.arm .handshakeTotal handshakeTotalTimeoutSecs
            let c := c.rearmFrameDeadline .rekey .hello
            c.push (.notify .rekeyStarted)

def onIncomingCommit (c : Ctx) (commit : CommitPayload) (emitRekeyStarted : Bool) : Ctx :=
  let referencesActive : Bool := commit.previousSessionId.isSome ∧
    commit.previousSessionId = c.self.activeSessionId
  if commit.cipherSuite ≠ 1 ∨ commit.purpose ≠ .rekey ∨ ¬ referencesActive then c.noteRekeyRejection
  else
    let c := c.update fun self => { self with consecutiveRekeyRejections := 0 }
    match c.startResponderRun commit emitRekeyStarted with
    | (.error error, c) => c.failRekey error
    | (.ok (), c) => c

/-- The greater raw identity key stays initiator. -/
def resolveGlare (c : Ctx) (commit : CommitPayload) : Ctx :=
  match c.self.peerIdentity with
  | none => c
  | some peer =>
      if commit.previousSessionId ≠ c.self.run.bind Run.previous then c.noteRekeyRejection
      else if localIdentityWinsRekeyGlare c.self.identity.identity peer then c
      else
        -- losing side: drop our commitment and ephemeral, then answer as responder
        let c := c.update fun self => { self with run := none }
        let c := (c.cancel .handshakeFrame).cancel .handshakeTotal
        c.onIncomingCommit commit false

/-- The COMMIT of a frame that arrives while no run is in progress, if it is
a valid rekey of the active session. -/
def incomingRekey (self : Engine) (frame : Frame) : Option CommitPayload :=
  if frame.messageType ≠ .rekey then none
  else match CommitPayload.decode frame with
    | .error _ => none
    | .ok commit =>
        if commit.cipherSuite = 1 ∧ commit.purpose = .rekey ∧ commit.previousSessionId.isSome ∧
            commit.previousSessionId = self.activeSessionId then some commit
        else none

def onRekeyFrame (c : Ctx) (frame : Frame) : Ctx :=
  match c.self.run with
  | none =>
      match incomingRekey c.self frame with
      | some commit =>
          (c.update fun self => { self with lateRekeyFrames := 0 }).onIncomingCommit commit true
      | none =>
          if 0 < c.self.lateRekeyFrames then
            c.update fun self => { self with lateRekeyFrames := self.lateRekeyFrames - 1 }
          else if frame.messageType = .sessionConfirm then
            c.terminate .protocolError (some .protocolError)
          else c.noteRekeyRejection
  | some run =>
      let glare : Option CommitPayload :=
        if run.role = .initiator ∧ run.step = .hello ∧ frame.messageType = .rekey then
          (CommitPayload.decode frame).toOption
        else none
      match glare with
      | some commit => c.resolveGlare commit
      | none =>
          match c.driveRun frame with
          | (.ok (some candidate), c) => c.completeRekey candidate
          | (.ok none, c) => c
          | (.error error, c) => c.failRekey error

def maybeTriggerRekey (c : Ctx) : Ctx :=
  if c.self.rekeyMessageLimit ≤ c.self.messages ∧ ¬ c.self.rekeyBlocked ∧ c.self.run.isNone then
    c.beginRekey
  else c

/-- `messages.saturating_add(1)`. -/
def countMessage (c : Ctx) : Ctx :=
  c.update fun self => { self with messages := min (self.messages + 1) u64Max }

def onSend (c : Ctx) (content : List UInt8) : Ctx :=
  if maxContent < content.length then c.push (.notify (.sendRejected .tooLarge))
  else
    match if c.self.phase = .established then c.self.active else none with
    | none => c.push (.notify (.sendRejected .notActive))
    | some active =>
        let (result, sender) := active.sender.encrypt content
        let c := c.update fun self => { self with active := some { active with sender } }
        match result with
        | .ok frame => ((c.push (.send frame)).countMessage).maybeTriggerRekey
        | .error .dataTooLarge => c.push (.notify (.sendRejected .tooLarge))
        | .error _ => c.terminate .protocolError (some .protocolError)

def onData (c : Ctx) (frame : Frame) : Ctx :=
  match c.self.active with
  | none => c
  | some active =>
      let (result, receiver) := active.receiver.decrypt frame
      let c := c.update fun self => { self with active := some { active with receiver } }
      match result with
      | .ok plaintext => ((c.push (.deliver plaintext)).countMessage).maybeTriggerRekey
      | .error activeError =>
          let (drained, c) : Option (List UInt8) × Ctx := match c.self.draining with
            | none => (none, c)
            | some draining =>
                let (result, receiver) := draining.receiver.decrypt frame
                (result.toOption,
                  c.update fun self => { self with draining := some { draining with receiver } })
          match drained with
          | some plaintext => c.push (.deliver plaintext)
          | none =>
              if isMalformed activeError then c.terminate .protocolError (some .protocolError)
              else c.push (.notify .dataRejected)

def onFrame (c : Ctx) (frame : Frame) : Ctx :=
  match c.self.phase with
  | .idle | .closed => c.terminate .protocolError (some .protocolError)
  | .handshaking => c.onFrameHandshaking frame
  | .established =>
      match frame.messageType with
      | .data => c.onData frame
      | .close => c.onCloseFrame frame
      | .rekey | .sessionConfirm => c.onRekeyFrame frame
      | .handshake => c.terminate .protocolError (some .protocolError)

def onTimeout (c : Ctx) (id : DeadlineId) : Ctx :=
  match c.self.deadlines.find? (·.1 = id) with
  | none => c
  | some (_, kind) =>
      let c := c.update fun self => { self with deadlines := self.deadlines.eraseP (·.1 = id) }
      match kind with
      | .handshakeFrame | .handshakeTotal =>
          if c.self.phase = .handshaking then c.terminate .timeout (some .resourceLimit)
          else if c.self.run.isSome then c.failRekey .transportTimeout
          else c
      | .sasDecision => c.terminate .timeout (some .authenticationFailure)
      | .rekeyDue =>
          (c.update fun self => { self with rekeyBlocked := false, lateRekeyFrames := 0 }).beginRekey
      | .drain => c.update fun self => { self with draining := none }

end Ctx

variable [Ciborium] [Primitives]

def Engine.handle (self : Engine) (input : Input) : Engine × List Effect :=
  if self.phase = .closed then (self, [])
  else
    let c : Ctx := { self, out := [] }
    let c := match input with
      | .start => c.start
      | .frameReceived frame => c.onFrame frame
      | .sasDecision approved => c.onSas approved
      | .localSend content => c.onSend content
      | .localClose reason => c.terminate .localClose (some reason)
      | .requestRekey => c.beginRekey
      | .timeout id => c.onTimeout id
      | .transportClosed => c.terminate .transportLost none
      | .malformed respond =>
          c.terminate .protocolError (if respond then some .protocolError else none)
    (c.self, c.out)

end Ruxmsg

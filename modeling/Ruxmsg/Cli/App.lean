import Ruxmsg.Task
import Ruxmsg.Cli.Commands
import Ruxmsg.Cli.Config
import Ruxmsg.Cli.Display
import Ruxmsg.Cli.Scrollback
import Mathlib.Data.List.AList

namespace Ruxmsg.Cli

structure ConnId where
  value : UInt64
  deriving DecidableEq

structure ConnectionHandle where
  id : ConnId
  deriving DecidableEq

inductive HandleError
  | busy
  | gone
  deriving DecidableEq

/-- The accept loop of a listener runs as a task of its own. -/
structure Listener where
  addr : Text
  task : Nat
  deriving DecidableEq

inductive NetEvent
  /-- A connection has the id of its handle. -/
  | opened (handle : ConnectionHandle) (remote : Text) (outbound : Bool)
  | dialFailed (addr error : Text)
  | listenerStopped (addr : Text) (error : Option Text)
  | conn (id : ConnId) (event : ConnEvent)

inductive PeerStatus
  | handshaking
  | connected
  | closed
  deriving DecidableEq

structure History where
  scrollback : Scrollback
  kept : ∃ shown, scrollback.Keeps shown

def History.empty : History := ⟨.empty, [], Scrollback.keeps_empty⟩

theorem History.push_isSome (self : History) (author : Author) (text : Text) :
    (self.scrollback.push author text).isSome := by
  obtain ⟨shown, hkeeps⟩ := self.kept
  obtain ⟨entry, scrollback, h, -⟩ := hkeeps.push author text
  rw [h]
  rfl

def History.push (self : History) (author : Author) (text : Text) : History where
  scrollback := (self.scrollback.push author text).get (self.push_isSome author text)
  kept := by
    obtain ⟨shown, hkeeps⟩ := self.kept
    obtain ⟨entry, scrollback, h, -, -, hkeeps'⟩ := hkeeps.push author text
    simp only [h, Option.get_some]
    exact ⟨_, hkeeps'⟩

structure Peer where
  id : ConnId
  handle : ConnectionHandle
  remote : Text
  outbound : Bool
  status : PeerStatus
  fingerprint : Option Text
  rekeying : Bool
  lastDataRejectionNotice : Option Instant
  scrollback : History
  unread : Nat
  closeNote : Option Text

structure PendingSas where
  id : ConnId
  label : Text
  words : List String
  fingerprint : Text
  outbound : Bool
  since : Instant
  typed : Text

structure ChatView where
  label : Text
  input : Text
  scroll : Nat
  maxScroll : Nat

inductive Mode
  | repl
  | chat (view : ChatView)

/-- The facade of the net layer, by the identity it was made with. -/
structure Net where
  identity : PeerIdentity

structure App where
  net : Option Net
  ownFingerprint : Option Text
  peers : AList fun _ : Text => Peer
  byId : AList fun _ : ConnId => Text
  defaultTarget : Option Text
  nextLabel : Nat
  listener : Option Listener
  sas : List PendingSas
  mode : Mode
  input : Text
  /-- Whether a chat holds the terminal. -/
  terminal : Bool
  keys : KeyMap
  quit : Bool
  touched : Bool

inductive Call
  | sendMessage (id : ConnId) (content : List UInt8)
  | close (id : ConnId) (reason : CloseReason)
  | requestRekey (id : ConnId)
  | answerSas (id : ConnId) (approved : Bool)
  | listen (addr : Text)
  | abort (listener : Listener)
  | dial (addr : Text)
  /-- A new facade, whose events come through a channel of its own. -/
  | newNet
  deriving DecidableEq

structure Replies where
  now : Instant
  handle : Except HandleError Unit
  listen : Except Text Listener
  loaded : Except Text (Option PeerIdentity)
  saved : Except Text Unit
  generated : PeerIdentity
  tryInit : Except Text Unit
  draw : Except Text Unit
  /-- The rows above the view, if the terminal has room for it. -/
  maxScroll : Option Nat
  newline : Except Text Unit
  prompt : Except Text Unit

/-- What ends the loop besides `quit`. -/
inductive Fault
  | io (error : Text)
  /-- The label counter overflows, which panics. -/
  | overflow
  deriving DecidableEq

inductive KeyCode
  | enter
  | esc
  | backspace
  | up
  | down
  | pageUp
  | pageDown
  | home
  | «end»
  | f (number : Nat)
  | char (character : Char)
  | other
  deriving DecidableEq

structure KeyEvent where
  code : KeyCode
  control : Bool
  alt : Bool
  deriving DecidableEq

inductive TermEvent
  | press (key : KeyEvent)
  | resize
  | other

inductive Input
  | terminal (event : TermEvent)
  | net (event : NetEvent)
  | tick

def maxUnauthenticatedHandshakes : Nat := 4

def maxTyped : Nat := 16

def isApproval (typed : Text) : Bool := typed.trim.map Char.toLower = "yes".toList

def fingerprint (identity : PeerIdentity) : Text :=
  identity.val.flatMap fun byte => (Nat.toDigits 16 byte.toNat).leftpad 2 '0'

def debugReason : CloseReason → String
  | .normal => "Normal"
  | .protocolError => "ProtocolError"
  | .authenticationFailure => "AuthenticationFailure"
  | .identityChanged => "IdentityChanged"
  | .resourceLimit => "ResourceLimit"
  | .shutdown => "Shutdown"

def causeText : CloseCause → Text
  | .localClose => "closed".toList
  | .peerUnauthenticated reason =>
      "peer closed (unauthenticated, ".toList ++ (debugReason reason).toList ++ ")".toList
  | .transportLost => "connection lost".toList
  | .protocolError => "protocol error".toList
  | .authenticationFailure => "authentication failed".toList
  | .sasRejected => "SAS not approved".toList
  | .timeout => "timed out".toList

def rekeyFailureText : RekeyFailure → Text
  | .timeout => "rekey timed out; session unchanged".toList
  | .identityMismatch => "rekey rejected: identity changed; session unchanged".toList
  | .invalid => "rekey failed; session unchanged".toList
  | .repeated =>
      "rekey failed repeatedly; session still using old keys (network or interference issue)".toList

def validateProfileName (name : Text) : Except Text Unit :=
  if name = [] then .error "profile name cannot be empty".toList
  else if 64 < name.len then .error "profile name is too long".toList
  else if ¬ name.all fun c => c.isAlphanum || c = '_' || c = '-' then
    .error "profile names may contain only ASCII letters, digits, '-' and '_'".toList
  else .ok ()

def loadIdentity (replies : Replies) (name : Text) (create : Bool) : Except Text PeerIdentity := do
  validateProfileName name
  let stored ← replies.loaded
  if create then
    if stored.isSome then .error ("profile '".toList ++ name ++ "' already exists".toList)
    else
      replies.saved
      return replies.generated
  else
    match stored with
    | some identity => return identity
    | none => .error ("profile '".toList ++ name ++ "' does not exist".toList)

def KeyEvent.typed (key : KeyEvent) : Option Char :=
  match key.code with
  | .char character => if key.control || key.alt || isControl character then none else some character
  | _ => none

def keyMatches (spec : KeySpec) (key : KeyEvent) : Bool :=
  let matched : Bool :=
    match spec.key, key.code with
    | .esc, .esc => true
    | .up, .up => true
    | .down, .down => true
    | .pageUp, .pageUp => true
    | .pageDown, .pageDown => true
    | .home, .home => true
    | .end, .end => true
    | .function number, .f pressed => number = pressed
    | .letter letter, .char typed => typed.toLower = letter.toLower
    | _, _ => false
  matched && key.control = spec.ctrl && key.alt = spec.alt

namespace App

def new (keys : KeyMap) : App where
  net := none
  ownFingerprint := none
  peers := ∅
  byId := ∅
  defaultTarget := none
  nextLabel := 0
  listener := none
  sas := []
  mode := .repl
  input := []
  terminal := false
  keys
  quit := false
  touched := false

def modify (self : App) (label : Text) (f : Peer → Peer) : App :=
  match self.peers.lookup label with
  | some peer => { self with peers := self.peers.insert label (f peer) }
  | none => self

def notice (self : App) (label text : Text) : App :=
  self.modify label fun peer => { peer with scrollback := peer.scrollback.push .system text }

section Commands

def ensureIdle (self : App) : Except Text Unit :=
  if self.peers.entries = [] ∧ self.listener = none then .ok ()
  else .error "close all sessions and stop the listener before switching profiles".toList

def installIdentity (self : App) (identity : PeerIdentity) : App :=
  { self with net := some { identity }, ownFingerprint := some (Cli.fingerprint identity) }

/-- `profile_init` and `profile_use`. -/
def switchProfile (self : App) (replies : Replies) (name : Text) (create : Bool) : App × List Call :=
  match self.ensureIdle, loadIdentity replies name create with
  | .ok (), .ok identity => (self.installIdentity identity, [.newNet])
  | _, _ => (self, [])

def start (self : App) (replies : Replies) (addr : Text) : App × List Call :=
  if self.listener.isSome ∨ self.net.isNone then (self, [])
  else
    match replies.listen with
    | .error _ => (self, [.listen addr])
    | .ok listener => ({ self with listener := some listener }, [.listen addr])

def stop (self : App) : App × List Call :=
  match self.listener with
  | none => (self, [])
  | some listener => ({ self with listener := none }, [.abort listener])

def dial (self : App) (addr : Text) : List Call := if self.net.isSome then [.dial addr] else []

/-- The next label; `none` is an addition that overflows. -/
def freshLabel (self : App) : Option (Text × App) :=
  if self.nextLabel < u64Max then
    some ("peer".toList ++ Nat.toDigits 10 (self.nextLabel + 1), { self with nextLabel := self.nextLabel + 1 })
  else none

def peer (self : App) (label : Text) : Except Text Peer :=
  match self.peers.lookup label with
  | some peer => .ok peer
  | none => .error ("no such session '".toList ++ label ++ "'".toList)

def connectedPeer (self : App) (label : Text) : Except Text Peer := do
  let peer ← self.peer label
  if peer.status ≠ .connected then .error ("session '".toList ++ label ++ "' is not connected".toList)
  else return peer

def sendText (self : App) (replies : Replies) (label text : Text) : Except Text Unit × App × List Call :=
  if maxContent < text.len then
    (.error ("message too long (limit ".toList ++ Nat.toDigits 10 maxContent ++ " bytes)".toList), self, [])
  else
    match self.connectedPeer label with
    | .error error => (.error error, self, [])
    | .ok peer =>
        let bytes := text.flatMap String.utf8EncodeChar
        let calls := [.sendMessage peer.handle.id bytes]
        match replies.handle with
        | .error .busy => (.error "send queue is full; try again".toList, self, calls)
        | .error .gone => (.error "session already closed".toList, self, calls)
        | .ok () =>
            let self := self.modify label fun peer =>
              { peer with scrollback := peer.scrollback.push .local (ingest bytes) }
            (.ok (), { self with touched := true }, calls)

def closeSession (self : App) (label : Text) : List Call :=
  match self.peer label with
  | .error _ => []
  | .ok peer => [.close peer.handle.id .normal]

def requestRekey (self : App) (replies : Replies) (label : Text) : Except Text Unit × List Call :=
  match self.connectedPeer label with
  | .error error => (.error error, [])
  | .ok peer =>
      (replies.handle.mapError fun _ => "session already closed".toList, [.requestRekey peer.handle.id])

def useTarget (self : App) (label : Text) : App :=
  match self.peer label with
  | .error _ => self
  | .ok _ => { self with defaultTarget := some label }

end Commands

section View

def redrawChat (self : App) (replies : Replies) : Except Fault Unit × App :=
  match self.mode, self.terminal with
  | .chat view, true =>
      let maxScroll :=
        if (self.peers.lookup view.label).isSome then replies.maxScroll.getD view.maxScroll else view.maxScroll
      (replies.draw.mapError .io, { self with mode := .chat { view with maxScroll } })
  | _, _ => (.ok (), self)

def tryEnterChat (self : App) (replies : Replies) (label : Text) : App :=
  match self.connectedPeer label, replies.tryInit with
  | .ok _, .ok () =>
      let self := { self with terminal := true, defaultTarget := some label, touched := true }
      let self := self.modify label fun peer => { peer with unread := 0 }
      ({ self with mode := .chat { label, input := [], scroll := 0, maxScroll := 0 } }.redrawChat replies).2
  | _, _ => self

def forget (self : App) (label : Text) : App :=
  match self.peers.lookup label with
  | some peer => { self with peers := self.peers.erase label, byId := self.byId.erase peer.id }
  | none => self

/-- Returns to the REPL. A closed session is forgotten here. -/
def leaveChat (self : App) : App :=
  let left := { self with terminal := false, mode := .repl }
  match self.mode with
  | .repl => left
  | .chat view =>
      if (self.peers.lookup view.label).any fun peer => peer.status = .closed then left.forget view.label
      else left

def views (self : App) (label : Text) : Bool :=
  match self.mode with
  | .repl => false
  | .chat view => view.label = label

end View

section Events

def answerSas (self : App) (approved : Bool) : App × List Call :=
  match self.sas with
  | [] => (self, [])
  | pending :: sas =>
      let calls :=
        match self.peers.lookup pending.label with
        | some peer => [Call.answerSas peer.handle.id approved]
        | none => []
      ({ self with sas }, calls)

def onSasRequired (self : App) (replies : Replies) (id : ConnId) (label : Text) (words : List String)
    (peerIdentity : PeerIdentity) : App × List Call :=
  let claimed := Cli.fingerprint peerIdentity
  let known := self.peers.lookup label
  let self := self.modify label fun peer => { peer with fingerprint := some claimed }
  let rejected := if maxUnauthenticatedHandshakes ≤ self.sas.length then known else none
  match rejected with
  | some peer =>
      let text :=
        match replies.handle with
        | .ok () => "SAS prompt rejected: too many verifications are already pending".toList
        | .error error =>
            "too many SAS verifications are pending, and rejection could not be sent: ".toList ++
              (match error with | .busy => "Busy" | .gone => "Gone").toList
      (self.notice label text, [.answerSas peer.handle.id false])
  | none =>
      let pending : PendingSas :=
        { id, label, words, fingerprint := claimed, outbound := known.any Peer.outbound, since := replies.now,
          typed := [] }
      ({ self with touched := true, sas := self.sas ++ [pending] }, [])

def onMessage (self : App) (label : Text) (bytes : List UInt8) : App :=
  let shown := self.views label
  let self := { self with touched := true }
  let self := self.modify label fun peer =>
    { peer with
      unread := if shown then peer.unread else peer.unread + 1
      scrollback := peer.scrollback.push .remote (ingest bytes) }
  match self.mode with
  | .chat view => if view.label = label then { self with mode := .chat { view with scroll := 0 } } else self
  | .repl => self

def onDataRejected (self : App) (replies : Replies) (label : Text) : App :=
  self.modify label fun peer =>
    if peer.lastDataRejectionNotice.any fun last => replies.now - last < 5 * nanosPerSec then peer
    else
      { peer with
        lastDataRejectionNotice := some replies.now
        scrollback := peer.scrollback.push .system "an invalid or unauthenticated message was dropped".toList }

def onClosed (self : App) (id : ConnId) (label : Text) (cause : CloseCause) : App :=
  let note := causeText cause
  let self := { self with sas := self.sas.filter fun pending => pending.id ≠ id }
  let self := self.modify label fun peer =>
    { peer with
      status := .closed
      rekeying := false
      closeNote := some note
      scrollback := peer.scrollback.push .system note }
  let self := { self with
    defaultTarget := if self.defaultTarget = some label then none else self.defaultTarget }
  -- A closed conversation stays readable only while its chat is open.
  if self.views label then self else self.forget label

def onConnEvent (self : App) (replies : Replies) (id : ConnId) (event : ConnEvent) : App × List Call :=
  match self.byId.lookup id with
  | none => (self, [])
  | some label =>
      match event with
      | .sasRequired words peerIdentity => self.onSasRequired replies id label words peerIdentity
      | .established peerIdentity =>
          (self.modify label fun peer =>
            { peer with
              status := .connected
              fingerprint := some (Cli.fingerprint peerIdentity)
              scrollback := peer.scrollback.push .system "secure session established".toList }, [])
      | .message content => (self.onMessage label content, [])
      | .rekeyStarted => (self.modify label fun peer => { peer with rekeying := true }, [])
      | .rekeyCompleted => (self.modify label fun peer => { peer with rekeying := false }, [])
      | .rekeyFailed failure =>
          ((self.modify label fun peer => { peer with rekeying := false }).notice label
            (rekeyFailureText failure), [])
      | .dataRejected => (self.onDataRejected replies label, [])
      | .sendRejected .notActive => (self.notice label "message not sent: session not active".toList, [])
      | .sendRejected .tooLarge => (self.notice label "message not sent: too large".toList, [])
      | .closed cause => (self.onClosed id label cause, [])

def onOpened (self : App) (handle : ConnectionHandle) (remote : Text) (outbound : Bool) :
    Except Fault Unit × App :=
  match self.freshLabel with
  | none => (.error .overflow, self)
  | some (label, self) =>
      let peer : Peer :=
        { id := handle.id, handle, remote, outbound, status := .handshaking, fingerprint := none,
          rekeying := false, lastDataRejectionNotice := none, scrollback := .empty, unread := 0,
          closeNote := none }
      (.ok (), { self with byId := self.byId.insert handle.id label, peers := self.peers.insert label peer })

def onNetEvent (self : App) (replies : Replies) (event : NetEvent) : Except Fault Unit × App × List Call :=
  match event with
  | .opened handle remote outbound =>
      match self.onOpened handle remote outbound with
      | (.error fault, self) => (.error fault, self, [])
      | (.ok (), self) =>
          let (result, self) := self.redrawChat replies
          (result, self, [])
  | .dialFailed _ _ =>
      let (result, self) := self.redrawChat replies
      (result, self, [])
  | .listenerStopped _ _ =>
      let (result, self) := { self with listener := none }.redrawChat replies
      (result, self, [])
  | .conn id event =>
      let (self, calls) := self.onConnEvent replies id event
      let (result, self) := self.redrawChat replies
      (result, self, calls)

end Events

section Keys

def editTyped (self : App) (f : Text → Text) : App :=
  match self.sas with
  | [] => self
  | pending :: sas => { self with sas := { pending with typed := f pending.typed } :: sas }

def pushTyped (character : Char) (typed : Text) : Text :=
  if typed.len + character.utf8Size ≤ maxTyped then typed ++ [character] else typed

def headApproved (self : App) : Bool := self.sas.head?.any fun pending => isApproval pending.typed

/-- The keys both handlers treat alike while a SAS is pending. -/
def sasKey (self : App) (key : KeyEvent) : App × List Call :=
  match key.code with
  | .enter => self.answerSas self.headApproved
  | .esc => self.answerSas false
  | .backspace => (self.editTyped List.dropLast, [])
  | _ =>
      match key.typed with
      | some character => (self.editTyped (pushTyped character), [])
      | none => (self, [])

def replSasKey (self : App) (key : KeyEvent) : App × List Call := self.sasKey key

def chatSasKey (self : App) (key : KeyEvent) : App × List Call :=
  if key.code = .char 'c' ∧ key.control then self.answerSas false else self.sasKey key

/-- One command of the REPL. What is only printed is left out. -/
def dispatch (self : App) (replies : Replies) (line : Text) : App × List Call :=
  match CommandParser.parse line with
  | .error _ => (self, [])
  | .ok command =>
      match command with
      | .profile (.init name) => self.switchProfile replies name true
      | .profile (.use name) => self.switchProfile replies name false
      | .start addr => self.start replies addr
      | .stop => self.stop
      | .connect addr => (self, self.dial addr)
      | .use label => (self.useTarget label, [])
      | .message label text => (self.sendText replies label text).2
      | .close label => (self, self.closeSession label)
      | .rekey label => (self, (self.requestRekey replies label).2)
      | .chat label =>
          match label.or self.defaultTarget with
          | some target => (self.tryEnterChat replies target, [])
          | none => (self, [])
      | .quit => ({ self with quit := true }, [])
      | .profile .list | .peers | .fingerprint _ | .session _ | .tailscale _ | .help => (self, [])

def replKey (self : App) (replies : Replies) (key : KeyEvent) : Except Fault Unit × App × List Call :=
  let prompt := replies.prompt.mapError .io
  if key.control ∧ (key.code = .char 'c' ∨ key.code = .char 'd') then
    (.ok (), { self with quit := true }, [])
  else if self.sas ≠ [] then
    let (self, calls) := self.replSasKey key
    (prompt, self, calls)
  else
    match key.code with
    | .enter =>
        let line := self.input.trim
        let self := { self with input := [] }
        match replies.newline with
        | .error error => (.error (.io error), self, [])
        | .ok () =>
            if line = [] then (prompt, self, [])
            else
              let (self, calls) := self.dispatch replies line
              (prompt, self, calls)
    | .backspace => (prompt, { self with input := self.input.dropLast }, [])
    | _ =>
        match key.typed with
        | some character =>
            if self.input.len + character.utf8Size ≤ maxContent then
              (prompt, { self with input := self.input ++ [character] }, [])
            else (prompt, self, [])
        | none => (prompt, self, [])

def chatEnter (self : App) (replies : Replies) (view : ChatView) : App × List Call :=
  let text := view.input.trim
  let self := { self with mode := .chat { view with input := [], scroll := 0 } }
  if text = [] then (self, [])
  else
    match self.sendText replies view.label text with
    | (.ok (), self, calls) => (self, calls)
    | (.error error, self, calls) => (self.notice view.label ("not sent: ".toList ++ error), calls)

def chatRekey (self : App) (replies : Replies) (label : Text) : App × List Call :=
  match self.requestRekey replies label with
  | (.ok (), calls) => (self, calls)
  | (.error error, calls) => (self.notice label ("rekey: ".toList ++ error), calls)

def scrollKey (keys : KeyMap) (view : ChatView) (key : KeyEvent) : ChatView :=
  if keyMatches keys.scrollUp key then { view with scroll := min (view.scroll + 1) view.maxScroll }
  else if keyMatches keys.scrollDown key then { view with scroll := view.scroll - 1 }
  else if keyMatches keys.pageUp key then { view with scroll := min (view.scroll + 10) view.maxScroll }
  else if keyMatches keys.pageDown key then { view with scroll := view.scroll - 10 }
  else view

def viewKey (keys : KeyMap) (view : ChatView) (key : KeyEvent) : ChatView :=
  if key.code = .backspace then { view with input := view.input.dropLast }
  else
    match key.typed with
    | some character =>
        if view.input.len + character.utf8Size ≤ maxContent then
          { view with input := view.input ++ [character] }
        else scrollKey keys view key
    | none => scrollKey keys view key

def chatKey (self : App) (replies : Replies) (view : ChatView) (key : KeyEvent) :
    Except Fault Unit × App × List Call :=
  if self.sas ≠ [] then
    let (self, calls) := self.chatSasKey key
    let (result, self) := self.redrawChat replies
    (result, self, calls)
  else if keyMatches self.keys.leave key ∨ (key.control ∧ key.code = .char 'c') then
    (.ok (), self.leaveChat, [])
  else
    let (self, calls) :=
      if key.code = .enter then self.chatEnter replies view
      else if keyMatches self.keys.rekey key then self.chatRekey replies view.label
      else ({ self with mode := .chat (viewKey self.keys view key) }, [])
    let (result, self) := self.redrawChat replies
    (result, self, calls)

def onTerminalEvent (self : App) (replies : Replies) (event : TermEvent) :
    Except Fault Unit × App × List Call :=
  match event with
  | .press key =>
      match self.mode with
      | .chat view => self.chatKey replies view key
      | .repl => self.replKey replies key
  | .resize =>
      let (result, self) := self.redrawChat replies
      (result, self, [])
  | .other => (.ok (), self, [])

end Keys

def handle (self : App) (replies : Replies) (input : Input) : Except Fault Unit × App × List Call :=
  match input with
  | .terminal event => self.onTerminalEvent replies event
  | .net event => self.onNetEvent replies event
  | .tick =>
      let (result, self) := self.redrawChat replies
      (result, self, [])

end App

end Ruxmsg.Cli

import Ruxmsg.Machine

namespace Ruxmsg

/-- Nanoseconds on the clock of the connection's task. -/
abbrev Instant := Nat

def nanosPerSec : Nat := 1000000000

inductive ConnEvent
  | sasRequired (words : List String) (peerIdentity : PeerIdentity)
  | established (peerIdentity : PeerIdentity)
  | message (content : List UInt8)
  | rekeyStarted
  | rekeyCompleted
  | rekeyFailed (failure : RekeyFailure)
  | dataRejected
  | sendRejected (rejection : SendRejection)
  | closed (cause : CloseCause)

/-- What a task asks of the outside, by the number of the question: the time,
whether a frame got written, and whether an event found its consumer. -/
structure World where
  now : Nat → Instant
  writes : Nat → Bool
  listens : Nat → Bool

structure Task where
  engine : Engine
  deadlines : List (DeadlineId × Instant)
  /-- Released once the handshake ends, so it only counts while unauthenticated. -/
  permit : Bool
  lost : Bool
  orphaned : Bool
  closing : Bool
  written : List Frame
  events : List ConnEvent
  world : World
  questions : Nat

inductive Control
  | close (reason : CloseReason)
  | requestRekey
  | sas (approved : Bool)

inductive DecodeError
  | unsupportedVersion
  | malformed

/-- What ends the wait of the task's loop: a read, with what its decoder then
yields, a message, a command, or a deadline. -/
inductive Wake
  | readEnded
  | read (decoded : List (Except DecodeError Frame))
  | message (content : List UInt8)
  | command (command : Option Control)
  | due

namespace Task

def new (engine : Engine) (permit : Bool) (world : World) : Task :=
  { engine
    deadlines := []
    permit
    lost := false
    orphaned := false
    closing := false
    written := []
    events := []
    world
    questions := 0 }

def write (self : Task) (frame : Frame) : Task :=
  if self.world.writes self.questions then
    { self with questions := self.questions + 1, written := self.written ++ [frame] }
  else { self with questions := self.questions + 1, lost := true }

def emit (self : Task) (event : ConnEvent) : Task :=
  if self.world.listens self.questions then
    { self with questions := self.questions + 1, events := self.events ++ [event] }
  else { self with questions := self.questions + 1, orphaned := true }

def notify (self : Task) : Event → Task
  | .established peerIdentity => { self with permit := false }.emit (.established peerIdentity)
  | .rekeyStarted => self.emit .rekeyStarted
  | .rekeyCompleted => self.emit .rekeyCompleted
  | .rekeyFailed failure => self.emit (.rekeyFailed failure)
  | .dataRejected => self.emit .dataRejected
  | .sendRejected rejection => self.emit (.sendRejected rejection)
  | .closed cause => { self with permit := false }.emit (.closed cause)

def forget (self : Task) (id : DeadlineId) : Task :=
  { self with deadlines := self.deadlines.filter (·.1 ≠ id) }

def perform (self : Task) : Effect → Task
  | .send frame => if ¬ self.lost then self.write frame else self
  | .setDeadline id _ after =>
      { self with
        questions := self.questions + 1
        deadlines := self.deadlines ++ [(id, self.world.now self.questions + after * nanosPerSec)] }
  | .cancelDeadline id => self.forget id
  | .requestSas words peerIdentity => self.emit (.sasRequired words peerIdentity)
  | .deliver content => self.emit (.message content)
  | .notify event => self.notify event
  | .closeTransport => { self with closing := true }

def process (self : Task) (effects : List Effect) : Task := effects.foldl perform self

variable [Ciborium] [Primitives]

def handle (self : Task) (input : Input) : Task :=
  let (engine, effects) := self.engine.handle input
  { self with engine }.process effects

def apply (self : Task) (input : Input) : Task :=
  let self := self.handle input
  -- a failed write means the transport is gone
  let self := if self.lost ∧ self.engine.phase ≠ .closed then self.handle .transportClosed else self
  -- a vanished consumer means nobody can answer SAS or read messages
  if self.orphaned ∧ self.engine.phase ≠ .closed then self.handle (.localClose .shutdown) else self

def due (self : Task) (now : Instant) : List (Instant × DeadlineId) :=
  ((self.deadlines.filter (·.2 ≤ now)).map fun deadline => (deadline.2, deadline.1)).mergeSort
    fun a b => a.1 < b.1 ∨ (a.1 = b.1 ∧ a.2 ≤ b.2)

def fireDue (self : Task) : Task :=
  let now := self.world.now self.questions
  let self := { self with questions := self.questions + 1 }
  (self.due now).foldl (fun self deadline => (self.forget deadline.2).apply (.timeout deadline.2)) self

def drainFrames (self : Task) : List (Except DecodeError Frame) → Task
  | [] => self
  | decoded :: rest =>
      if self.closing then self
      else
        let input : Input := match decoded with
          | .ok frame => .frameReceived frame
          | .error .unsupportedVersion => .malformed false
          | .error .malformed => .malformed true
        (self.apply input).drainFrames rest

/-- One round of the loop of `run`. -/
def wake (self : Task) (wake : Wake) : Task :=
  if self.closing then self
  else match wake with
    | .readEnded => self.apply .transportClosed
    | .read decoded => self.drainFrames decoded
    | .message content => self.apply (.localSend content)
    | .command command =>
        let input : Input := match command with
          | some (.close reason) => .localClose reason
          | some .requestRekey => .requestRekey
          | some (.sas approved) => .sasDecision approved
          | none => .localClose .shutdown
        self.apply input
    | .due => self.fireDue

def run (self : Task) (wakes : List Wake) : Task := wakes.foldl wake (self.apply .start)

end Task

end Ruxmsg

import Ruxmsg.Cli.Table
import Ruxmsg.Emissions
import Ruxmsg.Library.Channel

namespace Ruxmsg.Cli

open Library Library.Grammar

def messageQueue : Nat := 64
def controlQueue : Nat := 8
def eventQueue : Nat := 256

/-- Where the `run` of a connection's task stands. -/
inductive Life
  /-- It waits to put its `Opened` into the event channel. -/
  | announcing
  | announced
  | running
  | ended
  deriving DecidableEq

/-- A connection as `spawn` leaves it: its task, and what its handle has put
into the two queues. -/
structure Spawned where
  remote : Text
  outbound : Bool
  entropy : Entropy
  life : Life
  task : Task
  messages : List (List UInt8)
  control : List Control

/-- One `Net`, the receiver of its events and all tasks it has spawned. -/
structure Facade where
  identity : IdentityKeypair
  /-- In the order of their ids. -/
  conns : List Spawned
  events : Channel ConnId NetEvent
  /-- The permits left for handshakes. -/
  unauthenticated : Nat
  /-- Whether the receiver has not been dropped. -/
  heard : Bool
  /-- What the receiver has taken out so far. -/
  received : List NetEvent

/-- What can happen to a facade, in any order. The connections are numbered. -/
inductive Incident
  | accepts (remote : Text) (entropy : Entropy) (world : World)
  | connects (remote : Text) (entropy : Entropy) (world : World)
  /-- A dial that failed, or an accept loop that stopped, gets its event into the channel. -/
  | reports (event : NetEvent)
  /-- A task that waits for room in the channel goes on. -/
  | passes (n : Nat)
  | starts (n : Nat)
  | wakes (n : Nat) (wake : Wake)
  | ends (n : Nat)
  /-- A `try_send` on a handle that succeeded. -/
  | sends (n : Nat) (content : List UInt8)
  | orders (n : Nat) (control : Control)
  | takes
  /-- The receiver is dropped. -/
  | deafens

/-- The id that `fetch_add` yields for a connection, counted from 1. -/
def connId (n : Nat) : ConnId := ⟨UInt64.ofNat (n + 1)⟩

namespace Spawned

def role (self : Spawned) : HelloRole := if self.outbound then .initiator else .responder

def start (self : Spawned) (identity : IdentityKeypair) : Engine := Engine.new self.role identity self.entropy

/-- Whether it counts against the bound on handshakes. -/
def holds (self : Spawned) : Bool := self.life ≠ .ended && self.task.permit

def sendMessage (self : Spawned) (content : List UInt8) : Except HandleError Spawned :=
  if self.life = .ended then .error .gone
  else if messageQueue ≤ self.messages.length then .error .busy
  else .ok { self with messages := self.messages ++ [content] }

def sendControl (self : Spawned) (control : Control) : Except HandleError Spawned :=
  if self.life = .ended then .error .gone
  else if controlQueue ≤ self.control.length then .error .busy
  else .ok { self with control := self.control ++ [control] }

def order : Wake → List Control
  | .command control => control.toList
  | .readEnded | .read _ | .message _ | .due => []

/-- A wake takes its command out of the queue it came through. That every handle
is gone is left open. -/
def spends (self : Spawned) : Wake → Option Spawned
  | .message content =>
      match self.messages with
      | [] => none
      | next :: messages => if next = content then some { self with messages } else none
  | .command (some control) =>
      match self.control with
      | [] => none
      | next :: rest => if next = control then some { self with control := rest } else none
  | .command none => if self.control = [] then some self else none
  | .readEnded | .read _ | .due => some self

section Queues

variable {conn conn' : Spawned}

theorem sendMessage_eq_ok {content : List UInt8} (h : conn.sendMessage content = .ok conn') :
    conn.life ≠ .ended ∧ conn.messages.length < messageQueue ∧
      conn' = { conn with messages := conn.messages ++ [content] } := by
  rw [sendMessage] at h
  split at h
  · cases h
  · next hlife =>
    split at h
    · cases h
    · next hroom =>
      cases h
      exact ⟨hlife, Nat.lt_of_not_le hroom, rfl⟩

theorem sendControl_eq_ok {control : Control} (h : conn.sendControl control = .ok conn') :
    conn.life ≠ .ended ∧ conn.control.length < controlQueue ∧
      conn' = { conn with control := conn.control ++ [control] } := by
  rw [sendControl] at h
  split at h
  · cases h
  · next hlife =>
    split at h
    · cases h
    · next hroom =>
      cases h
      exact ⟨hlife, Nat.lt_of_not_le hroom, rfl⟩

/-- A wake takes out of the queues what it hands to the engine. -/
theorem spends_eq_some {wake : Wake} (h : conn.spends wake = some conn') :
    (∃ messages control, conn' = { conn with messages, control }) ∧
      conn.messages.map Ruxmsg.Input.localSend = wake.commands.filter Ruxmsg.Input.isSend ++ conn'.messages.map .localSend ∧
      conn.control = order wake ++ conn'.control := by
  cases wake with
  | readEnded | read | due =>
      obtain rfl := Option.some.inj h
      exact ⟨⟨_, _, rfl⟩, rfl, rfl⟩
  | message content =>
      dsimp only [spends] at h
      split at h
      · cases h
      · next hmessages =>
        obtain ⟨rfl, hconn⟩ := Option.ite_none_right_eq_some.1 h
        obtain rfl := Option.some.inj hconn
        rw [hmessages]
        exact ⟨⟨_, _, rfl⟩, rfl, rfl⟩
  | command control =>
      cases control with
      | none =>
          obtain ⟨-, h⟩ := Option.ite_none_right_eq_some.1 h
          obtain rfl := Option.some.inj h
          exact ⟨⟨_, _, rfl⟩, rfl, rfl⟩
      | some control =>
          dsimp only [spends] at h
          split at h
          · cases h
          · next next rest hcontrol =>
            obtain ⟨rfl, hconn⟩ := Option.ite_none_right_eq_some.1 h
            obtain rfl := Option.some.inj hconn
            rw [hcontrol]
            cases next <;> exact ⟨⟨_, _, rfl⟩, rfl, rfl⟩

structure Bounded (conn : Spawned) : Prop where
  messages : conn.messages.length ≤ messageQueue
  control : conn.control.length ≤ controlQueue

theorem Bounded.spends {wake : Wake} (hconn : conn.Bounded) (h : conn.spends wake = some conn') : conn'.Bounded := by
  obtain ⟨-, hmessages, hcontrol⟩ := spends_eq_some h
  have hmessages := congrArg List.length hmessages
  have hcontrol := congrArg List.length hcontrol
  rw [List.length_append, List.length_map, List.length_map] at hmessages
  rw [List.length_append] at hcontrol
  exact ⟨(Nat.le_add_left ..).trans (hmessages.ge.trans hconn.messages),
    (Nat.le_add_left ..).trans (hcontrol.ge.trans hconn.control)⟩

end Queues

end Spawned

namespace Facade

def new (identity : IdentityKeypair) : Facade where
  identity
  conns := []
  events := .empty
  unauthenticated := maxUnauthenticatedHandshakes
  heard := true
  received := []

/-- A task whose announcement nobody takes returns at once. -/
def spawn (self : Facade) (remote : Text) (outbound : Bool) (entropy : Entropy) (world : World) : Facade :=
  let id := connId self.conns.length
  let conn : Spawned :=
    { remote, outbound, entropy
      life := if self.heard then .announcing else .ended
      task := Task.new (Engine.new (if outbound then .initiator else .responder) self.identity entropy) (!outbound) world
      messages := []
      control := [] }
  { self with
    conns := self.conns ++ [conn]
    events := if self.heard then self.events.offer id [.opened ⟨id⟩ remote outbound] else self.events }

/-- The events of a task that went on are on their way, and a permit that it gave
back is free again. -/
def advance (self : Facade) (n : Nat) (conn : Spawned) (task : Task) : Facade :=
  let news := task.events.drop conn.task.events.length
  { self with
    conns := self.conns.set n { conn with life := .running, task }
    events := if self.heard then self.events.offer (connId n) (news.map (.conn (connId n))) else self.events
    unauthenticated := if conn.task.permit && !task.permit then self.unauthenticated + 1 else self.unauthenticated }

def blocked (self : Facade) (n : Nat) : Bool := self.heard && !(self.events.waiting (connId n)).isEmpty

variable [Ciborium] [Primitives]

def step (self : Facade) : Incident → Option Facade
  | .accepts remote entropy world =>
      if self.unauthenticated = 0 then none
      else
        let unauthenticated := if self.heard then self.unauthenticated - 1 else self.unauthenticated
        some { self.spawn remote false entropy world with unauthenticated }
  | .connects remote entropy world => some (self.spawn remote true entropy world)
  | .reports event =>
      if self.heard ∧ self.events.queue.length < eventQueue ∧ event.connection = none then
        some { self with events := self.events.put event }
      else none
  | .passes n => do
      let conn ← self.conns[n]?
      let events ← self.events.pass (connId n)
      if self.heard ∧ self.events.queue.length < eventQueue then
        let life := if conn.life = .announcing then .announced else conn.life
        some { self with events, conns := self.conns.set n { conn with life } }
      else none
  | .starts n => do
      let conn ← self.conns[n]?
      if conn.life = .announced then some (self.advance n conn (conn.task.apply .start)) else none
  | .wakes n wake => do
      let conn ← self.conns[n]?
      let conn ← conn.spends wake
      if conn.life = .running ∧ ¬ conn.task.closing ∧ ¬ self.blocked n then
        some (self.advance n conn (conn.task.wake wake))
      else none
  | .ends n => do
      let conn ← self.conns[n]?
      -- the task has closed its connection, or could not announce it
      if (conn.life = .running ∧ conn.task.closing ∧ ¬ self.blocked n) ∨ (conn.life = .announcing ∧ ¬ self.heard) then
        some { self with
          conns := self.conns.set n { conn with life := .ended }
          unauthenticated := if conn.task.permit then self.unauthenticated + 1 else self.unauthenticated }
      else none
  | .sends n content => do
      let conn ← self.conns[n]?
      match conn.sendMessage content with
      | .ok conn => some { self with conns := self.conns.set n conn }
      | .error _ => none
  | .orders n control => do
      let conn ← self.conns[n]?
      match conn.sendControl control with
      | .ok conn => some { self with conns := self.conns.set n conn }
      | .error _ => none
  | .takes => do
      let (event, events) ← self.events.pop
      if self.heard then some { self with events, received := self.received ++ [event] } else none
  | .deafens => some { self with heard := false }

inductive Does (self : Facade) : Incident → Facade → Prop
  | accepts {remote entropy world} (free : 0 < self.unauthenticated) :
      Does self (.accepts remote entropy world)
        { self.spawn remote false entropy world with
          unauthenticated := if self.heard then self.unauthenticated - 1 else self.unauthenticated }
  | connects {remote entropy world} :
      Does self (.connects remote entropy world) (self.spawn remote true entropy world)
  | reports {event} (heard : self.heard = true) (room : self.events.queue.length < eventQueue)
      (foreign : event.connection = none) :
      Does self (.reports event) { self with events := self.events.put event }
  | passes {n conn events} (conn_eq : self.conns[n]? = some conn) (pass : self.events.pass (connId n) = some events)
      (heard : self.heard = true) (room : self.events.queue.length < eventQueue) :
      Does self (.passes n)
        { self with
          events
          conns := self.conns.set n
            { conn with life := if conn.life = .announcing then .announced else conn.life } }
  | starts {n conn} (conn_eq : self.conns[n]? = some conn) (life : conn.life = .announced) :
      Does self (.starts n) (self.advance n conn (conn.task.apply .start))
  | wakes {n wake conn conn'} (conn_eq : self.conns[n]? = some conn) (spends : conn.spends wake = some conn')
      (life : conn.life = .running) (still : conn.task.closing = false) :
      Does self (.wakes n wake) (self.advance n conn' (conn'.task.wake wake))
  | ends {n conn} (conn_eq : self.conns[n]? = some conn) (life : conn.life ≠ .ended)
      (closing : conn.life = .running → conn.task.closing = true) :
      Does self (.ends n)
        { self with
          conns := self.conns.set n { conn with life := .ended }
          unauthenticated := if conn.task.permit then self.unauthenticated + 1 else self.unauthenticated }
  | sends {n content conn} (conn_eq : self.conns[n]? = some conn) (life : conn.life ≠ .ended)
      (room : conn.messages.length < messageQueue) :
      Does self (.sends n content)
        { self with conns := self.conns.set n { conn with messages := conn.messages ++ [content] } }
  | orders {n control conn} (conn_eq : self.conns[n]? = some conn) (life : conn.life ≠ .ended)
      (room : conn.control.length < controlQueue) :
      Does self (.orders n control)
        { self with conns := self.conns.set n { conn with control := conn.control ++ [control] } }
  | takes {event events} (pop : self.events.pop = some (event, events)) (heard : self.heard = true) :
      Does self .takes { self with events, received := self.received ++ [event] }
  | deafens : Does self .deafens { self with heard := false }

theorem step_does {self self' : Facade} {incident : Incident} (h : self.step incident = some self') :
    self.Does incident self' := by
  cases incident with
  | accepts remote entropy world =>
      obtain ⟨hfree, h⟩ := Option.ite_none_left_eq_some.1 h
      cases h
      exact .accepts (Nat.pos_of_ne_zero hfree)
  | connects remote entropy world =>
      cases h
      exact .connects
  | reports event =>
      obtain ⟨⟨hheard, hroom, hforeign⟩, h⟩ := Option.ite_none_right_eq_some.1 h
      cases h
      exact .reports hheard hroom hforeign
  | passes n =>
      obtain ⟨conn, hconn, h⟩ := Option.bind_eq_some_iff.1 h
      obtain ⟨events, hevents, h⟩ := Option.bind_eq_some_iff.1 h
      obtain ⟨⟨hheard, hroom⟩, h⟩ := Option.ite_none_right_eq_some.1 h
      cases h
      exact .passes hconn hevents hheard hroom
  | starts n =>
      obtain ⟨conn, hconn, h⟩ := Option.bind_eq_some_iff.1 h
      obtain ⟨hlife, h⟩ := Option.ite_none_right_eq_some.1 h
      cases h
      exact .starts hconn hlife
  | wakes n wake =>
      obtain ⟨conn, hconn, h⟩ := Option.bind_eq_some_iff.1 h
      obtain ⟨conn', hspends, h⟩ := Option.bind_eq_some_iff.1 h
      obtain ⟨⟨hlife, hstill, -⟩, h⟩ := Option.ite_none_right_eq_some.1 h
      cases h
      obtain ⟨⟨messages, control, rfl⟩, -⟩ := Spawned.spends_eq_some hspends
      exact .wakes hconn hspends hlife (by simpa using hstill)
  | ends n =>
      obtain ⟨conn, hconn, h⟩ := Option.bind_eq_some_iff.1 h
      obtain ⟨hlife, h⟩ := Option.ite_none_right_eq_some.1 h
      cases h
      refine .ends hconn ?_ ?_
      · rcases hlife with ⟨hlife, -⟩ | ⟨hlife, -⟩ <;> simp [hlife]
      · intro hrunning
        rcases hlife with ⟨-, hclosing, -⟩ | ⟨hlife, -⟩
        · exact hclosing
        · cases hrunning.symm.trans hlife
  | sends n content =>
      obtain ⟨conn, hconn, h⟩ := Option.bind_eq_some_iff.1 h
      split at h
      · next hsend =>
        cases h
        obtain ⟨hlife, hroom, rfl⟩ := Spawned.sendMessage_eq_ok hsend
        exact .sends hconn hlife hroom
      · cases h
  | orders n control =>
      obtain ⟨conn, hconn, h⟩ := Option.bind_eq_some_iff.1 h
      split at h
      · next hsend =>
        cases h
        obtain ⟨hlife, hroom, rfl⟩ := Spawned.sendControl_eq_ok hsend
        exact .orders hconn hlife hroom
      · cases h
  | takes =>
      obtain ⟨⟨event, events⟩, hpop, h⟩ := Option.bind_eq_some_iff.1 h
      obtain ⟨hheard, h⟩ := Option.ite_none_right_eq_some.1 h
      cases h
      exact .takes hpop hheard
  | deafens =>
      cases h
      exact .deafens

end Facade

namespace Sample

def willing : World := { now := fun _ => 0, writes := fun _ => true, listens := fun _ => true }

open Ruxmsg.Sample in
/-- A stranger connects, and the handle is told things too early. -/
def arriving : List Incident :=
  [.accepts "peer".toList (entropy 1) willing, .passes 0, .takes, .starts 0, .sends 0 [104, 105],
    .orders 0 .requestRekey, .wakes 0 (.message [104, 105]), .passes 0]

end Sample

end Ruxmsg.Cli

import Ruxmsg.Cli.Table

namespace Ruxmsg.Cli

open Library.Machine

section Turns

/-- A call that neither starts nor stops an accept loop nor changes the channel
of its events. -/
def Call.still : Call → Bool
  | .listen _ | .abort _ | .newNet => false
  | _ => true

inductive Listens (replies : Replies) : Option Listener → List Call → Option Listener → Prop
  | keeps {listener calls} (still : ∀ call ∈ calls, call.still) : Listens replies listener calls listener
  | fails {addr error} (refused : replies.listen = .error error) : Listens replies none [.listen addr] none
  | starts {addr listener} (bound : replies.listen = .ok listener) :
      Listens replies none [.listen addr] (some listener)
  | stops {listener} : Listens replies (some listener) [.abort listener] none
  | renews : Listens replies none [.newNet] none

namespace App

variable {self : App} {replies : Replies} {label : Text} {f : Peer → Peer}

@[simp] theorem listener_modify : (self.modify label f).listener = self.listener := by
  rw [modify]
  split <;> rfl

@[simp] theorem listener_notice (text : Text) : (self.notice label text).listener = self.listener :=
  listener_modify

@[simp] theorem listener_redrawChat : (self.redrawChat replies).2.listener = self.listener := by
  rw [redrawChat]
  split <;> rfl

@[simp] theorem listener_forget : (self.forget label).listener = self.listener := by
  rw [forget]
  split <;> rfl

@[simp] theorem listener_tryEnterChat : (self.tryEnterChat replies label).listener = self.listener := by
  rw [tryEnterChat]
  split
  · rw [listener_redrawChat]
    exact listener_modify
  · rfl

@[simp] theorem listener_leaveChat : self.leaveChat.listener = self.listener := by
  rw [leaveChat]
  split
  · rfl
  · split
    · exact listener_forget
    · rfl

@[simp] theorem listener_editTyped (f : Text → Text) : (self.editTyped f).listener = self.listener := by
  rw [editTyped]
  split <;> rfl

def Quiet (self : App) (turned : App × List Call) : Prop :=
  turned.1.listener = self.listener ∧ ∀ call ∈ turned.2, call.still

theorem Quiet.listens {turned : App × List Call} (h : self.Quiet turned) :
    Listens replies self.listener turned.2 turned.1.listener := by
  rw [h.1]
  exact .keeps h.2

theorem quiet_of_eq {app : App} (h : app.listener = self.listener) : self.Quiet (app, []) := ⟨h, by simp⟩

variable (self) in
theorem answerSas_quiet (approved : Bool) : self.Quiet (self.answerSas approved) := by
  rw [answerSas]
  split
  · exact quiet_of_eq rfl
  · refine ⟨rfl, ?_⟩
    dsimp only
    split <;> simp [Call.still]

variable (self) in
theorem sasKey_quiet (key : KeyEvent) : self.Quiet (self.sasKey key) := by
  rw [sasKey]
  split
  · exact self.answerSas_quiet _
  · exact self.answerSas_quiet false
  · exact quiet_of_eq (listener_editTyped _)
  · split
    · exact quiet_of_eq (listener_editTyped _)
    · exact quiet_of_eq rfl

variable (self) in
theorem chatSasKey_quiet (key : KeyEvent) : self.Quiet (self.chatSasKey key) := by
  rw [chatSasKey]
  split
  · exact self.answerSas_quiet false
  · exact self.sasKey_quiet key

variable (self) in
theorem sendText_quiet (replies : Replies) (label text : Text) : self.Quiet (self.sendText replies label text).2 := by
  rw [sendText]
  split
  · exact quiet_of_eq rfl
  · split
    · exact quiet_of_eq rfl
    · dsimp only
      split
      · exact ⟨rfl, by simp [Call.still]⟩
      · exact ⟨rfl, by simp [Call.still]⟩
      · exact ⟨listener_modify, by simp [Call.still]⟩

variable (self) in
theorem requestRekey_still (replies : Replies) (label : Text) :
    ∀ call ∈ (self.requestRekey replies label).2, call.still := by
  rw [requestRekey]
  split <;> simp [Call.still]

variable (self) in
theorem onConnEvent_quiet (replies : Replies) (id : ConnId) (event : ConnEvent) :
    self.Quiet (self.onConnEvent replies id event) := by
  rw [onConnEvent]
  split
  · exact quiet_of_eq rfl
  · next label _ =>
    cases event with
    | sasRequired words peerIdentity =>
        dsimp only
        rw [onSasRequired]
        dsimp only
        split
        · exact ⟨by rw [listener_notice, listener_modify], by simp [Call.still]⟩
        · exact quiet_of_eq listener_modify
    | established | rekeyStarted | rekeyCompleted => exact quiet_of_eq listener_modify
    | message content =>
        apply quiet_of_eq
        rw [onMessage.eq_def]
        dsimp only
        split
        · split <;> exact listener_modify
        · exact listener_modify
    | rekeyFailed failure =>
        apply quiet_of_eq
        rw [listener_notice, listener_modify]
    | dataRejected => exact quiet_of_eq listener_modify
    | sendRejected reason => cases reason <;> exact quiet_of_eq (listener_notice _)
    | closed cause =>
        apply quiet_of_eq
        rw [onClosed.eq_def]
        dsimp only
        rw [apply_ite App.listener, listener_forget, ite_self]
        exact listener_modify

theorem ensureIdle_ok (h : self.ensureIdle = .ok ()) : self.listener = none := by
  rw [ensureIdle] at h
  split at h
  · next hidle => exact hidle.2
  · cases h

variable (self) in
theorem dispatch_listens (replies : Replies) (line : Text) :
    Listens replies self.listener (self.dispatch replies line).2 (self.dispatch replies line).1.listener := by
  rw [dispatch]
  split
  · exact (quiet_of_eq rfl).listens
  · next command _ =>
    cases command with
    | profile command =>
        cases command with
        | init name | use name =>
            dsimp only
            rw [switchProfile]
            split
            · next hidle _ =>
              have hnone := ensureIdle_ok hidle
              rw [installIdentity, hnone]
              exact .renews
            · exact (quiet_of_eq rfl).listens
        | list => exact (quiet_of_eq rfl).listens
    | start addr =>
        dsimp only
        rw [start]
        split
        · exact (quiet_of_eq rfl).listens
        · next hidle =>
          have hnone : self.listener = none := by
            rw [not_or, Option.not_isSome_iff_eq_none] at hidle
            exact hidle.1
          split
          · next hrefused =>
            dsimp only
            rw [hnone]
            exact .fails hrefused
          · next hbound =>
            dsimp only
            rw [hnone]
            exact .starts hbound
    | stop =>
        dsimp only
        rw [stop]
        split
        · exact (quiet_of_eq rfl).listens
        · next hlistener =>
          dsimp only
          rw [hlistener]
          exact .stops
    | connect addr =>
        apply Quiet.listens
        refine ⟨rfl, ?_⟩
        dsimp only
        rw [dial]
        split <;> simp [Call.still]
    | use label =>
        apply Quiet.listens
        apply quiet_of_eq
        rw [useTarget]
        split <;> rfl
    | message label text => exact (self.sendText_quiet replies label text).listens
    | close label =>
        apply Quiet.listens
        refine ⟨rfl, ?_⟩
        dsimp only
        rw [closeSession]
        split <;> simp [Call.still]
    | rekey label =>
        apply Quiet.listens
        exact ⟨rfl, self.requestRekey_still replies label⟩
    | chat label =>
        dsimp only
        split
        · exact (quiet_of_eq listener_tryEnterChat).listens
        · exact (quiet_of_eq rfl).listens
    | peers | fingerprint | session | tailscale | help | quit => exact (quiet_of_eq rfl).listens

variable (self) in
theorem chatEnter_quiet (replies : Replies) (view : ChatView) : self.Quiet (self.chatEnter replies view) := by
  have hsent (app : App) (happ : app.listener = self.listener) (text : Text) :
      self.Quiet (app.sendText replies view.label text).2 := by
    obtain ⟨hlistener, hcalls⟩ := app.sendText_quiet replies view.label text
    exact ⟨hlistener.trans happ, hcalls⟩
  rw [chatEnter.eq_def]
  dsimp only
  split
  · exact quiet_of_eq rfl
  · have hquiet := hsent { self with mode := .chat { view with input := [], scroll := 0 } } rfl view.input.trim
    split
    · next h =>
      rw [h] at hquiet
      exact hquiet
    · next h =>
      rw [h] at hquiet
      exact ⟨(listener_notice _).trans hquiet.1, hquiet.2⟩

variable (self) in
theorem chatRekey_quiet (replies : Replies) (label : Text) : self.Quiet (self.chatRekey replies label) := by
  have hstill := self.requestRekey_still replies label
  rw [chatRekey]
  split
  · next h =>
    rw [h] at hstill
    exact ⟨rfl, hstill⟩
  · next h =>
    rw [h] at hstill
    exact ⟨listener_notice _, hstill⟩

variable (self) in
theorem chatKey_quiet (replies : Replies) (view : ChatView) (key : KeyEvent) :
    self.Quiet (self.chatKey replies view key).2 := by
  have hredrawn {turned : App × List Call} (h : self.Quiet turned) :
      self.Quiet ((turned.1.redrawChat replies).2, turned.2) :=
    ⟨listener_redrawChat.trans h.1, h.2⟩
  rw [chatKey]
  split
  · exact hredrawn (self.chatSasKey_quiet key)
  · split
    · exact quiet_of_eq listener_leaveChat
    · dsimp only
      split
      · exact hredrawn (self.chatEnter_quiet replies view)
      · split
        · exact hredrawn (self.chatRekey_quiet replies view.label)
        · exact hredrawn (quiet_of_eq rfl)

variable (self) in
theorem replKey_listens (replies : Replies) (key : KeyEvent) :
    Listens replies self.listener (self.replKey replies key).2.2 (self.replKey replies key).2.1.listener := by
  rw [replKey]
  dsimp only
  split
  · exact (quiet_of_eq rfl).listens
  · split
    · exact (self.sasKey_quiet key).listens
    · split
      · split
        · exact (quiet_of_eq rfl).listens
        · split
          · exact (quiet_of_eq rfl).listens
          · exact dispatch_listens { self with input := [] } replies self.input.trim
      · exact (quiet_of_eq rfl).listens
      · split
        · split <;> exact (quiet_of_eq rfl).listens
        · exact (quiet_of_eq rfl).listens

variable (self) in
theorem onTerminalEvent_listens (replies : Replies) (event : TermEvent) :
    Listens replies self.listener (self.onTerminalEvent replies event).2.2
      (self.onTerminalEvent replies event).2.1.listener := by
  cases event with
  | press key =>
      dsimp only [onTerminalEvent]
      split
      · exact (self.chatKey_quiet replies _ key).listens
      · exact self.replKey_listens replies key
  | resize => exact (quiet_of_eq listener_redrawChat).listens
  | other => exact (quiet_of_eq rfl).listens

variable (self) in
/-- Only the end of an accept loop touches the listener. -/
theorem onNetEvent_quiet (replies : Replies) {event : NetEvent}
    (h : ∀ addr error, event ≠ .listenerStopped addr error) : self.Quiet (self.onNetEvent replies event).2 := by
  cases event with
  | opened handle remote outbound =>
      have hopened : (self.onOpened handle remote outbound).2.listener = self.listener := by
        rcases self.onOpened_cases handle remote outbound with ⟨hopened, -⟩ | hopened
        · rw [hopened]
        · rw [hopened]
      dsimp only [onNetEvent]
      split
      · next h =>
        rw [h] at hopened
        exact quiet_of_eq hopened
      · next h =>
        rw [h] at hopened
        exact quiet_of_eq (listener_redrawChat.trans hopened)
  | dialFailed => exact quiet_of_eq listener_redrawChat
  | listenerStopped addr error => exact absurd rfl (h addr error)
  | conn id event =>
      obtain ⟨hlistener, hcalls⟩ := self.onConnEvent_quiet replies id event
      exact ⟨listener_redrawChat.trans hlistener, hcalls⟩

variable (self) in
theorem onNetEvent_stopped (replies : Replies) (addr : Text) (error : Option Text) :
    (self.onNetEvent replies (.listenerStopped addr error)).2.1.listener = none ∧
      (self.onNetEvent replies (.listenerStopped addr error)).2.2 = [] :=
  ⟨listener_redrawChat, rfl⟩

end App

end Turns

/-- The client and the accept loops that run beside it. -/
structure Process where
  app : App
  /-- Each loop with the net it sends its events to. -/
  loops : List (Listener × Nat)
  nets : Nat
  /-- The events of the present net, each with the loop that queued it. -/
  queue : List (NetEvent × Option Listener)
  started : List Listener
  stopped : List Listener
  reported : List Listener

inductive Occurrence
  | turns (replies : Replies) (event : TermEvent)
  | ticks (replies : Replies)
  /-- A connection or a dial queues an event. -/
  | posts (event : NetEvent)
  /-- An accept loop has failed too often, queues its event and ends. -/
  | fails (task : Nat) (error : Text)
  /-- The client handles the first event that is queued. -/
  | takes (replies : Replies)

namespace Process

def new (keys : KeyMap) : Process where
  app := .new keys
  loops := []
  nets := 0
  queue := []
  started := []
  stopped := []
  reported := []

/-- A new accept loop is a task of its own. -/
def numbered (s : Process) (replies : Replies) : Replies :=
  { replies with listen := replies.listen.map fun listener => { listener with task := s.started.length } }

def perform (replies : Replies) (s : Process) : Call → Process
  | .listen _ =>
      match replies.listen with
      | .error _ => s
      | .ok listener =>
          { s with loops := s.loops ++ [(listener, s.nets)], started := s.started ++ [listener] }
  | .abort listener =>
      { s with
        loops := s.loops.filter fun loop => loop.1 ≠ listener
        stopped := s.stopped ++ [listener] }
  | .newNet => { s with nets := s.nets + 1, queue := [] }
  | _ => s

def after (s : Process) (replies : Replies) (turned : App × List Call) : Process :=
  turned.2.foldl (perform replies) { s with app := turned.1 }

def post (s : Process) (event : NetEvent) : Process :=
  match event with
  | .listenerStopped _ _ => s
  | event => { s with queue := s.queue ++ [(event, none)] }

def fail (s : Process) (task : Nat) (error : Text) : Process :=
  match s.loops.find? fun loop => loop.1.task = task with
  | none => s
  | some (listener, net) =>
      { s with
        loops := s.loops.filter fun loop => loop.1 ≠ listener
        queue :=
          if net = s.nets then s.queue ++ [(.listenerStopped listener.addr (some error), some listener)]
          else s.queue }

def take (s : Process) (replies : Replies) : Process :=
  match s.queue with
  | [] => s
  | (event, origin) :: queue =>
      { s with queue, reported := s.reported ++ origin.toList }.after replies (s.app.onNetEvent replies event).2

def step (s : Process) (occurrence : Occurrence) : Process × Unit :=
  match occurrence with
  | .turns replies event =>
      (s.after (s.numbered replies) (s.app.onTerminalEvent (s.numbered replies) event).2, ())
  | .ticks replies => ({ s with app := (s.app.redrawChat replies).2 }, ())
  | .posts event => (s.post event, ())
  | .fails task error => (s.fail task error, ())
  | .takes replies => (s.take replies, ())

/-- The client has the newest accept loop, until it is stopped or its end is
reported. -/
def Listening (s : Process) : Prop :=
  ∀ listener, s.app.listener = some listener ↔
    s.started.getLast? = some listener ∧ listener ∉ s.stopped ∧ listener ∉ s.reported

/-- `stop` reaches every accept loop that runs. -/
def Reaches (s : Process) : Prop := ∀ loop ∈ s.loops, s.app.listener = some loop.1

/-- The end of an accept loop is handled while the client has no other one. -/
def Timely (s : Process) (occurrence : Occurrence) : Prop :=
  ∀ replies addr error origin queue, occurrence = .takes replies →
    s.queue = (.listenerStopped addr error, some origin) :: queue →
    s.app.listener = none ∨ s.app.listener = some origin

structure Queues (s : Process) (entry : NetEvent × Option Listener) : Prop where
  stopped : ∀ listener, entry.2 = some listener →
    (∃ addr error, entry.1 = .listenerStopped addr error) ∧ listener ∈ s.started ∧
      ∀ loop ∈ s.loops, loop.1 ≠ listener
  other : entry.2 = none → ∀ addr error, entry.1 ≠ .listenerStopped addr error

structure Sound (s : Process) : Prop where
  listening : s.Listening
  reaches : s.Reaches
  numbered : ∀ listener ∈ s.started, listener.task < s.started.length
  stopped : ∀ listener ∈ s.stopped, listener ∈ s.started
  reported : ∀ listener ∈ s.reported, listener ∈ s.started
  queued : ∀ entry ∈ s.queue, s.Queues entry

section Sound

variable {s : Process} {app : App} {replies : Replies} {calls : List Call} {listener : Listener}

theorem foldl_still (h : ∀ call ∈ calls, call.still) : calls.foldl (perform replies) s = s := by
  induction calls generalizing s with
  | nil => rfl
  | cons call calls ih =>
      have hcall : perform replies s call = s := by
        have hstill := h call List.mem_cons_self
        cases call with
        | listen | abort | newNet => cases hstill
        | _ => rfl
      rw [List.foldl_cons, hcall]
      exact ih fun call hc => h call (List.mem_cons_of_mem _ hc)

/-- An event in the queue stays one of a loop that has ended while no loop is added. -/
theorem Queues.of_sublist {s' : Process} {entry : NetEvent × Option Listener} (h : s.Queues entry)
    (hstarted : s'.started = s.started) (hloops : s'.loops.Sublist s.loops) : s'.Queues entry where
  stopped listener hlistener := by
    obtain ⟨hevent, hmem, hne⟩ := h.stopped listener hlistener
    rw [hstarted]
    exact ⟨hevent, hmem, fun loop hloop => hne loop (hloops.subset hloop)⟩
  other := h.other

theorem Sound.of_app (h : s.Sound) (happ : app.listener = s.app.listener) : ({ s with app } : Process).Sound where
  listening := by
    intro listener
    rw [happ]
    exact h.listening listener
  reaches := by
    intro loop hloop
    rw [happ]
    exact h.reaches loop hloop
  numbered := h.numbered
  stopped := h.stopped
  reported := h.reported
  queued entry hentry := (h.queued entry hentry).of_sublist rfl (.refl _)

theorem Sound.started (h : s.Sound) (hnone : s.app.listener = none) (happ : app.listener = some listener)
    (htask : listener.task = s.started.length) :
    ({ s with app, loops := s.loops ++ [(listener, s.nets)], started := s.started ++ [listener] } : Process).Sound := by
  have hnew : listener ∉ s.started := by
    intro hmem
    have := h.numbered listener hmem
    omega
  have hidle : s.loops = [] := by
    apply List.eq_nil_iff_forall_not_mem.2
    intro loop hloop
    cases hnone.symm.trans (h.reaches loop hloop)
  refine ⟨?_, ?_, ?_, ?_, ?_, ?_⟩
  · intro other
    rw [happ, List.getLast?_concat, Option.some.injEq]
    constructor
    · rintro rfl
      exact ⟨rfl, fun hm => hnew (h.stopped _ hm), fun hm => hnew (h.reported _ hm)⟩
    · exact fun hother => hother.1
  · intro loop hloop
    rw [hidle, List.nil_append] at hloop
    rw [List.mem_singleton.1 hloop]
    exact happ
  · intro other hother
    rw [List.length_append, List.length_singleton]
    rcases List.mem_append.1 hother with hother | hother
    · have := h.numbered other hother
      omega
    · rw [List.mem_singleton.1 hother, htask]
      omega
  · exact fun other hother => List.mem_append_left _ (h.stopped other hother)
  · exact fun other hother => List.mem_append_left _ (h.reported other hother)
  · intro entry hentry
    refine ⟨?_, (h.queued entry hentry).other⟩
    intro other hother
    obtain ⟨hevent, hstarted, -⟩ := (h.queued entry hentry).stopped other hother
    refine ⟨hevent, List.mem_append_left _ hstarted, ?_⟩
    intro loop hloop
    rw [hidle, List.nil_append] at hloop
    rw [List.mem_singleton.1 hloop]
    rintro rfl
    exact hnew hstarted

theorem Sound.mem_started (h : s.Sound) (hlistener : s.app.listener = some listener) : listener ∈ s.started :=
  List.mem_of_getLast? ((h.listening listener).1 hlistener).1

/-- With a listener or none in the client, no other one is left to it. -/
theorem Sound.newest_eq (h : s.Sound) (hnewest : s.app.listener = none ∨ s.app.listener = some listener)
    {other : Listener} (hlast : s.started.getLast? = some other) (hstopped : other ∉ s.stopped)
    (hreported : other ∉ s.reported) : other = listener := by
  have hother := (h.listening other).2 ⟨hlast, hstopped, hreported⟩
  rcases hnewest with hnone | hsome
  · cases hnone.symm.trans hother
  · exact Option.some.inj (hother.symm.trans hsome)

theorem Sound.loop_eq (h : s.Sound) (hnewest : s.app.listener = none ∨ s.app.listener = some listener)
    {loop : Listener × Nat} (hloop : loop ∈ s.loops) : loop.1 = listener := by
  have hsame := h.reaches loop hloop
  rcases hnewest with hnone | hsome
  · cases hnone.symm.trans hsame
  · exact Option.some.inj (hsame.symm.trans hsome)

theorem Sound.stops (h : s.Sound) (hlistener : s.app.listener = some listener) (happ : app.listener = none) :
    ({ s with
        app
        loops := s.loops.filter fun loop => loop.1 ≠ listener
        stopped := s.stopped ++ [listener] } : Process).Sound where
  listening := by
    intro other
    rw [happ]
    constructor
    · intro hnone
      cases hnone
    · rintro ⟨hlast, hstopped, hreported⟩
      rw [List.mem_append, not_or, List.mem_singleton] at hstopped
      exact absurd (h.newest_eq (.inr hlistener) hlast hstopped.1 hreported) hstopped.2
  reaches := by
    intro loop hloop
    obtain ⟨hmem, hne⟩ := List.mem_filter.1 hloop
    exact absurd (h.loop_eq (.inr hlistener) hmem) (of_decide_eq_true hne)
  numbered := h.numbered
  stopped := by
    intro other hother
    rcases List.mem_append.1 hother with hother | hother
    · exact h.stopped other hother
    · rw [List.mem_singleton.1 hother]
      exact h.mem_started hlistener
  reported := h.reported
  queued entry hentry := (h.queued entry hentry).of_sublist rfl List.filter_sublist

theorem Sound.renews (h : s.Sound) (happ : app.listener = s.app.listener) :
    ({ s with app, nets := s.nets + 1, queue := [] } : Process).Sound where
  listening := (h.of_app happ).listening
  reaches := (h.of_app happ).reaches
  numbered := h.numbered
  stopped := h.stopped
  reported := h.reported
  queued := by simp

theorem Sound.after (h : s.Sound) (hnumber : ∀ listener, replies.listen = .ok listener → listener.task = s.started.length)
    (hlistens : Listens replies s.app.listener calls app.listener) : (s.after replies (app, calls)).Sound := by
  generalize hbefore : s.app.listener = before at hlistens
  generalize hafter : app.listener = after at hlistens
  cases hlistens with
  | keeps hstill =>
      rw [Process.after, foldl_still hstill]
      exact h.of_app (hafter.trans hbefore.symm)
  | fails hrefused =>
      rw [Process.after, List.foldl_cons, List.foldl_nil, perform, hrefused]
      exact h.of_app (hafter.trans hbefore.symm)
  | starts hbound =>
      rw [Process.after, List.foldl_cons, List.foldl_nil, perform, hbound]
      exact h.started hbefore hafter (hnumber _ hbound)
  | stops => exact h.stops hbefore hafter
  | renews => exact h.renews (hafter.trans hbefore.symm)

theorem Sound.post (h : s.Sound) (event : NetEvent) : (s.post event).Sound := by
  have hposted (hother : ∀ addr error, event ≠ .listenerStopped addr error) :
      ({ s with queue := s.queue ++ [(event, none)] } : Process).Sound := by
    refine { h with queued := ?_ }
    intro entry hentry
    rcases List.mem_append.1 hentry with hentry | hentry
    · exact (h.queued entry hentry).of_sublist rfl (.refl _)
    · rw [List.mem_singleton.1 hentry]
      exact ⟨by simp, fun _ => hother⟩
  cases event with
  | listenerStopped => exact h
  | opened | dialFailed | conn => exact hposted (by simp)

theorem Sound.fail (h : s.Sound) (task : Nat) (error : Text) : (s.fail task error).Sound := by
  rw [Process.fail]
  split
  · exact h
  · next listener net hfind =>
    have hlistener := h.reaches _ (List.mem_of_find?_eq_some hfind)
    refine
      { listening := h.listening
        reaches := fun loop hloop => h.reaches loop (List.mem_of_mem_filter hloop)
        numbered := h.numbered
        stopped := h.stopped
        reported := h.reported
        queued := ?_ }
    intro entry hentry
    have hkept (hmem : entry ∈ s.queue) :
        ({ s with loops := s.loops.filter fun loop => loop.1 ≠ listener } : Process).Queues entry :=
      (h.queued entry hmem).of_sublist rfl List.filter_sublist
    dsimp only at hentry
    split at hentry
    · rcases List.mem_append.1 hentry with hentry | hentry
      · exact (hkept hentry).of_sublist rfl (.refl _)
      · rw [List.mem_singleton.1 hentry]
        refine ⟨?_, by simp⟩
        rintro other ⟨⟩
        exact ⟨⟨_, _, rfl⟩, h.mem_started hlistener, fun loop hloop => of_decide_eq_true (List.mem_filter.1 hloop).2⟩
    · exact (hkept hentry).of_sublist rfl (.refl _)

theorem Sound.dequeue (h : s.Sound) {entry : NetEvent × Option Listener} {queue : List (NetEvent × Option Listener)}
    (hqueue : s.queue = entry :: queue) : ({ s with queue } : Process).Sound := by
  refine { h with queued := ?_ }
  intro other hother
  have hqueued := h.queued other (by rw [hqueue]; exact List.mem_cons_of_mem _ hother)
  exact hqueued.of_sublist rfl (.refl _)

/-- The end of an accept loop is reported while the client has no other one. -/
theorem Sound.reports (h : s.Sound) (hstarted : listener ∈ s.started) (hended : ∀ loop ∈ s.loops, loop.1 ≠ listener)
    (htimely : s.app.listener = none ∨ s.app.listener = some listener) (happ : app.listener = none) :
    ({ s with app, reported := s.reported ++ [listener] } : Process).Sound where
  listening := by
    intro other
    rw [happ]
    constructor
    · intro hnone
      cases hnone
    · rintro ⟨hlast, hstopped, hreported⟩
      rw [List.mem_append, not_or, List.mem_singleton] at hreported
      exact absurd (h.newest_eq htimely hlast hstopped hreported.1) hreported.2
  reaches := by
    intro loop hloop
    exact absurd (h.loop_eq htimely hloop) (hended loop hloop)
  numbered := h.numbered
  stopped := h.stopped
  reported := by
    intro other hother
    rcases List.mem_append.1 hother with hother | hother
    · exact h.reported other hother
    · rw [List.mem_singleton.1 hother]
      exact hstarted
  queued entry hentry := (h.queued entry hentry).of_sublist rfl (.refl _)

theorem Sound.take (h : s.Sound) (replies : Replies) (ht : s.Timely (.takes replies)) : (s.take replies).Sound := by
  rw [Process.take]
  split
  · exact h
  · next event origin queue hqueue =>
    have hentry := h.queued (event, origin) (by rw [hqueue]; exact List.mem_cons_self)
    have hrest := h.dequeue hqueue
    cases origin with
    | none =>
        obtain ⟨hlistener, hstill⟩ := s.app.onNetEvent_quiet replies (hentry.other rfl)
        rw [Process.after, foldl_still hstill, Option.toList_none, List.append_nil]
        exact hrest.of_app hlistener
    | some listener =>
        obtain ⟨⟨addr, error, rfl⟩, hstarted, hended⟩ := hentry.stopped listener rfl
        obtain ⟨hnone, hcalls⟩ := s.app.onNetEvent_stopped replies addr error
        rw [Process.after, hcalls, Option.toList_some, List.foldl_nil]
        exact hrest.reports hstarted hended (ht replies _ _ _ _ rfl hqueue) hnone

theorem Sound.step (h : s.Sound) {occurrence : Occurrence} (ht : s.Timely occurrence) : (s.step occurrence).1.Sound := by
  cases occurrence with
  | turns replies event =>
      apply h.after
      · intro listener hlisten
        rw [Process.numbered] at hlisten
        cases hbound : replies.listen with
        | error error =>
            rw [hbound] at hlisten
            cases hlisten
        | ok bound =>
            rw [hbound] at hlisten
            obtain rfl := Except.ok.inj hlisten
            rfl
      · exact s.app.onTerminalEvent_listens (s.numbered replies) event
  | ticks replies => exact h.of_app App.listener_redrawChat
  | posts event => exact h.post event
  | fails task error => exact h.fail task error
  | takes replies => exact h.take replies ht

theorem new_sound (keys : KeyMap) : (new keys).Sound where
  listening := by simp [Listening, new, App.new]
  reaches := by simp [Reaches, new]
  numbered := by simp [new]
  stopped := by simp [new]
  reported := by simp [new]
  queued := by simp [new]

/-- The end of another loop takes the client's own one with it. -/
theorem timely_of_listening {occurrence : Occurrence} (h : s.Listening)
    (h' : (s.step occurrence).1.Listening) : s.Timely occurrence := by
  rintro replies addr error origin queue rfl hqueue
  obtain ⟨hnone, hcalls⟩ := s.app.onNetEvent_stopped replies addr error
  have htaken : (s.step (.takes replies)).1 =
      { s with
        app := (s.app.onNetEvent replies (.listenerStopped addr error)).2.1
        queue
        reported := s.reported ++ [origin] } := by
    rw [Process.step, Process.take, hqueue]
    dsimp only
    rw [Process.after, hcalls, List.foldl_nil, Option.toList_some]
  rw [htaken] at h'
  cases hlistener : s.app.listener with
  | none => exact .inl rfl
  | some listener =>
      right
      by_contra hne
      obtain ⟨hlast, hstopped, hreported⟩ := (h listener).1 hlistener
      have hkept := (h' listener).2 ⟨hlast, hstopped, by
        rw [List.mem_append, not_or, List.mem_singleton]
        exact ⟨hreported, fun h => hne (congrArg some h)⟩⟩
      cases hnone.symm.trans hkept

end Sound

end Process

open Process in
/-- The client holds the newest accept loop until that is stopped or its end is
reported, and `stop` reaches every loop that runs, exactly in the runs where the
end of a loop is handled while the client holds that loop or none. -/
theorem listener_kept_iff (keys : KeyMap) (occurrences : List Occurrence) :
    (∀ past future, occurrences = past ++ future →
      (final step (new keys) past).Listening ∧ (final step (new keys) past).Reaches) ↔
      Allowed step Timely (new keys) occurrences :=
  holds_iff_allowed (P := fun s => s.Listening ∧ s.Reaches) (new_sound keys) (fun _ _ h ht => h.step ht)
    (fun _ h => ⟨h.listening, h.reaches⟩) (fun _ _ h h' => timely_of_listening h.1 h'.1) occurrences

namespace Sample

def ready : Replies :=
  { plain with
    listen := .ok ⟨"127.0.0.1:4443".toList, 0⟩
    loaded := .ok (some (Bytes.replicate 32 7)) }

def enter (line : String) : List Occurrence :=
  (line.toList.map fun c => .turns ready (.press { code := .char c, control := false, alt := false })) ++
    [.turns ready (.press { code := .enter, control := false, alt := false })]

/-- A listener fails, is stopped and started anew, and then its failure is
handled. -/
def restart : List Occurrence :=
  enter "profile use me" ++ enter "start" ++ [.fails 0 "refused".toList] ++ enter "stop" ++ enter "start" ++
    [.takes ready]

end Sample

open Process Cli.Sample in
/-- The failure of a stopped listener takes the one that was started after it:
its accept loop runs on, and no `stop` reaches it. -/
theorem live_listener_lost :
    (final step (new .default) restart).app.listener = none ∧
      (final step (new .default) restart).loops = [(⟨"127.0.0.1:4443".toList, 1⟩, 1)] ∧
      ¬ (final step (new .default) restart).Listening := by
  have hnone : (final step (new .default) restart).app.listener = none := by
    decide +kernel
  refine ⟨hnone, by decide +kernel, ?_⟩
  intro h
  have hnewest := (h ⟨"127.0.0.1:4443".toList, 1⟩).2 (by decide +kernel)
  cases hnone.symm.trans hnewest

end Ruxmsg.Cli

import Ruxmsg.Cli.Facade

namespace Ruxmsg.Cli

open Library Library.Grammar Library.Machine

namespace Incident

def message? (n : Nat) : Incident → Option (List UInt8)
  | .sends m content => if m = n then some content else none
  | _ => none

def order? (n : Nat) : Incident → Option Control
  | .orders m control => if m = n then some control else none
  | _ => none

end Incident

/-- What the handle of a connection has been told to send, in its order. -/
def messagesTo (n : Nat) (past : List Incident) : List (List UInt8) := past.filterMap (Incident.message? n)

def ordersTo (n : Nat) (past : List Incident) : List Control := past.filterMap (Incident.order? n)

section Past

variable {n : Nat} {past : List Incident} {incident : Incident}

theorem messagesTo_snoc : messagesTo n (past ++ [incident]) = messagesTo n past ++ (incident.message? n).toList := by
  cases h : incident.message? n <;> simp [messagesTo, h]

theorem ordersTo_snoc : ordersTo n (past ++ [incident]) = ordersTo n past ++ (incident.order? n).toList := by
  cases h : incident.order? n <;> simp [ordersTo, h]

end Past

variable [Ciborium] [Primitives]

/-- The engine has been given the orders its handle took, a close like any other,
in their order but for those that still wait; and at most a shutdown on top, once
every handle or the receiver is gone. -/
def Spawned.Obeys (conn : Spawned) (n : Nat) (past : List Incident) (inputs : List Ruxmsg.Input) : Prop :=
  ∃ taken, taken ++ conn.control = ordersTo n past ∧
    (inputs.filter Ruxmsg.Input.isOrder = taken.map Control.input ∨
      inputs.filter Ruxmsg.Input.isOrder = taken.map Control.input ++ [.localClose .shutdown] ∧
        conn.task.closing = true ∧ (conn.task.orphaned = true ∨ .wakes n (.command none) ∈ past))

/-- A connection against all that has happened: its task has been given what its
handle took, but for what still waits in the two queues. -/
structure Spawned.Sound (identity : IdentityKeypair) (past : List Incident) (n : Nat) (conn : Spawned) : Prop where
  run : ∃ inputs, Task.Follows (conn.start identity) (!conn.outbound) inputs conn.task ∧
    inputs.filter Ruxmsg.Input.isSend ++ conn.messages.map .localSend = (messagesTo n past).map .localSend ∧
    conn.Obeys n past inputs
  settled : conn.task.Settled

structure Facade.Sound (past : List Incident) (facade : Facade) : Prop where
  conns : ∀ n (conn : Spawned), facade.conns[n]? = some conn → conn.Sound facade.identity past n
  untold : ∀ n, facade.conns.length ≤ n → messagesTo n past = [] ∧ ordersTo n past = []

section Sound

variable {identity : IdentityKeypair} {past : List Incident} {incident : Incident} {n : Nat} {conn : Spawned}

omit [Ciborium] [Primitives] in
theorem filter_commanded (p : Ruxmsg.Input → Bool) (hp : ∀ input, p input = true → input.commanded = true)
    (inputs : List Ruxmsg.Input) : (inputs.filter Ruxmsg.Input.commanded).filter p = inputs.filter p := by
  rw [List.filter_filter]
  apply List.filter_congr
  intro input _
  cases h : p input with
  | true => simp [hp input h]
  | false => simp

omit [Ciborium] [Primitives] in
theorem Spawned.Obeys.kept {inputs : List Ruxmsg.Input} (h : conn.Obeys n past inputs) {conn' : Spawned}
    (htask : conn'.task = conn.task) (hcontrol : conn'.control = conn.control ++ (incident.order? n).toList) :
    conn'.Obeys n (past ++ [incident]) inputs := by
  obtain ⟨taken, htaken, hgiven⟩ := h
  refine ⟨taken, ?_, ?_⟩
  · rw [ordersTo_snoc, hcontrol, ← htaken, List.append_assoc]
  · rw [htask]
    rcases hgiven with hgiven | ⟨hgiven, hclosing, hgone⟩
    · exact .inl hgiven
    · exact .inr ⟨hgiven, hclosing, hgone.imp_right fun hmem => List.mem_append_left _ hmem⟩

omit [Ciborium] [Primitives] in
theorem Spawned.Obeys.decided {inputs : List Ruxmsg.Input} (h : conn.Obeys n past inputs) {approved : Bool}
    (hmem : .sasDecision approved ∈ inputs) : .sas approved ∈ ordersTo n past := by
  obtain ⟨taken, htaken, hgiven⟩ := h
  have hfilter : .sasDecision approved ∈ inputs.filter Ruxmsg.Input.isOrder := List.mem_filter.2 ⟨hmem, rfl⟩
  have hinput : .sasDecision approved ∈ taken.map Control.input := by
    rcases hgiven with hgiven | ⟨hgiven, -⟩
    · exact hgiven ▸ hfilter
    · rw [hgiven] at hfilter
      exact (List.mem_append.1 hfilter).resolve_right (by simp)
  obtain ⟨control, hcontrol, hinput⟩ := List.mem_map.1 hinput
  rw [← htaken]
  cases control with
  | sas approved' =>
      obtain rfl := Ruxmsg.Input.sasDecision.inj hinput
      exact List.mem_append_left _ hcontrol
  | close | requestRekey => cases hinput

theorem Spawned.Sound.untouched (h : conn.Sound identity past n) (hmessage : incident.message? n = none)
    (horder : incident.order? n = none) : conn.Sound identity (past ++ [incident]) n := by
  obtain ⟨inputs, hfollows, hsends, horders⟩ := h.run
  refine ⟨⟨inputs, hfollows, ?_, ?_⟩, h.settled⟩
  · rw [messagesTo_snoc, hmessage, Option.toList_none, List.append_nil]
    exact hsends
  · apply horders.kept rfl
    rw [horder, Option.toList_none, List.append_nil]

/-- What an open connection is given between two looks at its queues: what it took
out of them, or a shutdown since nobody is there to put anything in. -/
theorem Spawned.Sound.given {conn' : Spawned} {task : Task} {commands : List Ruxmsg.Input} {orders : List Control}
    (h : conn.Sound identity past n) (hopen : conn.task.closing = false)
    (hsame : ∃ messages control, conn' = { conn with messages, control })
    (hmessages : conn.messages.map Ruxmsg.Input.localSend =
      commands.filter Ruxmsg.Input.isSend ++ conn'.messages.map .localSend)
    (hcontrol : conn.control = orders ++ conn'.control)
    (hquiet : incident.message? n = none ∧ incident.order? n = none)
    (hheeds : ∀ {inputs}, Task.Follows (conn.start identity) (!conn.outbound) inputs conn.task →
      task.Heeds (conn.start identity) (!conn.outbound) inputs commands)
    (horders : commands.filter Ruxmsg.Input.isOrder = orders.map Control.input ∨
      orders = [] ∧ commands = [.localClose .shutdown] ∧ task.closing = true ∧ incident = .wakes n (.command none))
    (life : Life) : Spawned.Sound identity (past ++ [incident]) n { conn' with life, task } := by
  obtain ⟨messages, control, rfl⟩ := hsame
  obtain ⟨inputs, hfollows, hsends, taken, htaken, hgiven⟩ := h.run
  obtain ⟨more, hfollows', hsettled, hhands⟩ := hheeds hfollows
  have hgiven : inputs.filter Ruxmsg.Input.isOrder = taken.map Control.input := by
    rcases hgiven with hgiven | ⟨-, hclosing, -⟩
    · exact hgiven
    · cases hopen.symm.trans hclosing
  have hfilter (p : Ruxmsg.Input → Bool) (hp : ∀ input, p input = true → input.commanded = true) :
      (inputs ++ more).filter p = inputs.filter p ++ (more.filter Ruxmsg.Input.commanded).filter p := by
    rw [filter_commanded p hp, List.filter_append]
  have hsend : ∀ input : Ruxmsg.Input, input.isSend = true → input.commanded = true := by
    intro input hinput
    rw [Ruxmsg.Input.commanded, hinput, Bool.true_or]
  have horder : ∀ input : Ruxmsg.Input, input.isOrder = true → input.commanded = true := by
    intro input hinput
    rw [Ruxmsg.Input.commanded, hinput, Bool.or_true]
  refine ⟨⟨inputs ++ more, hfollows', ?_, taken ++ orders, ?_, ?_⟩, hsettled⟩
  · have hsent : (more.filter Ruxmsg.Input.commanded).filter Ruxmsg.Input.isSend =
        commands.filter Ruxmsg.Input.isSend := by
      rcases hhands with hmore | ⟨hmore, -⟩
      · rw [hmore]
      · rw [hmore, List.filter_append]
        exact List.append_nil _
    rw [messagesTo_snoc, hquiet.1, Option.toList_none, List.append_nil, ← hsends, hmessages, hfilter _ hsend, hsent,
      List.append_assoc]
  · rw [ordersTo_snoc, hquiet.2, Option.toList_none, List.append_nil, ← htaken, hcontrol, List.append_assoc]
  · rw [hfilter _ horder, hgiven, List.map_append]
    rcases hhands with hmore | ⟨hmore, hnone, horphaned, hclosing⟩
    · rw [hmore]
      rcases horders with horders | ⟨rfl, rfl, hclosing, rfl⟩
      · exact .inl (by rw [horders])
      · refine .inr ⟨?_, hclosing, .inr (List.mem_append_right _ (List.mem_singleton_self _))⟩
        exact congrArg (· ++ _) (List.append_nil _).symm
    · rw [hmore, List.filter_append]
      rcases horders with horders | ⟨-, rfl, -⟩
      · rw [horders, ← List.append_assoc]
        exact .inr ⟨rfl, hclosing, .inl horphaned⟩
      · exact absurd (List.mem_singleton_self _) (hnone .shutdown)

theorem Spawned.Sound.start (h : conn.Sound identity past n) (life : Life) :
    Spawned.Sound identity (past ++ [.starts n]) n { conn with life, task := conn.task.apply .start } := by
  cases hclosing : conn.task.closing with
  | true =>
      obtain ⟨inputs, hfollows, -⟩ := h.run
      rw [Task.apply_closed (hfollows.closing.1 hclosing)]
      have hsound := h.untouched (rfl : (Incident.starts n).message? n = none) rfl
      exact ⟨hsound.run, hsound.settled⟩
  | false =>
      have hheeds {inputs : List Ruxmsg.Input}
          (hfollows : Task.Follows (conn.start identity) (!conn.outbound) inputs conn.task) :=
        (hfollows.heeds h.settled).apply_quiet (rfl : Ruxmsg.Input.start.commanded = false)
      exact h.given hclosing ⟨_, _, rfl⟩ rfl (List.nil_append _).symm ⟨rfl, rfl⟩ hheeds (.inl rfl) life

theorem Spawned.Sound.wake {conn' : Spawned} {wake : Wake} (h : conn.Sound identity past n)
    (hopen : conn.task.closing = false) (hspends : conn.spends wake = some conn') (life : Life) :
    Spawned.Sound identity (past ++ [.wakes n wake]) n { conn' with life, task := conn'.task.wake wake } := by
  obtain ⟨⟨messages, control, rfl⟩, hmessages, hcontrol⟩ := Spawned.spends_eq_some hspends
  refine h.given hopen ⟨messages, control, rfl⟩ hmessages hcontrol ⟨rfl, rfl⟩
    (fun hfollows => (hfollows.heeds h.settled).wake hopen wake) ?_ life
  cases wake with
  | command control =>
      rcases control with _ | ⟨reason⟩ | _ | ⟨approved⟩
      · obtain ⟨inputs, hfollows, -⟩ := h.run
        refine .inr ⟨rfl, rfl, ?_, rfl⟩
        have hclosed := hfollows.closes fun e => Task.handle_localClose e .shutdown
        rw [Task.wake]
        rw [if_neg (by simp [hopen])]
        exact hclosed
      · exact .inl rfl
      · exact .inl rfl
      · exact .inl rfl
  | _ => exact .inl rfl

variable {self self' : Facade}

theorem Facade.Sound.set (h : self.Sound past) (hidentity : self'.identity = self.identity) {conn' : Spawned}
    (hconns : self'.conns = self.conns.set n conn') (hn : self.conns[n]? = some conn)
    (hconn : conn'.Sound self.identity (past ++ [incident]) n)
    (hothers : ∀ m, m ≠ n → incident.message? m = none ∧ incident.order? m = none) :
    self'.Sound (past ++ [incident]) := by
  have hlt : n < self.conns.length := (List.getElem?_eq_some_iff.1 hn).1
  constructor
  · intro m other hm
    rw [hconns, List.getElem?_set] at hm
    rw [hidentity]
    by_cases hne : n = m
    · subst hne
      rw [if_pos rfl, if_pos hlt] at hm
      obtain rfl := Option.some.inj hm
      exact hconn
    · rw [if_neg hne] at hm
      obtain ⟨hmessage, horder⟩ := hothers m (Ne.symm hne)
      exact (h.conns m other hm).untouched hmessage horder
  · intro m hm
    rw [hconns, List.length_set] at hm
    obtain ⟨hmessage, horder⟩ := hothers m (by omega)
    rw [messagesTo_snoc, ordersTo_snoc, hmessage, horder, (h.untold m hm).1, (h.untold m hm).2]
    exact ⟨rfl, rfl⟩

theorem Facade.Sound.kept (h : self.Sound past) (hidentity : self'.identity = self.identity)
    (hconns : self'.conns = self.conns) (hquiet : ∀ m, incident.message? m = none ∧ incident.order? m = none) :
    self'.Sound (past ++ [incident]) := by
  constructor
  · intro m conn hm
    rw [hconns] at hm
    rw [hidentity]
    exact (h.conns m conn hm).untouched (hquiet m).1 (hquiet m).2
  · intro m hm
    rw [hconns] at hm
    rw [messagesTo_snoc, ordersTo_snoc, (hquiet m).1, (hquiet m).2, (h.untold m hm).1, (h.untold m hm).2]
    exact ⟨rfl, rfl⟩

omit [Ciborium] [Primitives] in
theorem Engine.new_eq_configured (role : HelloRole) (identity : IdentityKeypair) (entropy : Entropy) :
    Engine.new role identity entropy = Engine.configured role identity entropy Ruxmsg.rekeyMessageLimit := rfl

theorem Facade.Sound.spawn (h : self.Sound past) (remote : Text) (outbound : Bool) (entropy : Entropy) (world : World)
    (hidentity : self'.identity = self.identity)
    (hconns : self'.conns = (self.spawn remote outbound entropy world).conns)
    (hquiet : ∀ m, incident.message? m = none ∧ incident.order? m = none) :
    self'.Sound (past ++ [incident]) := by
  constructor
  · intro m conn hm
    rw [hconns, Facade.spawn] at hm
    rw [hidentity]
    rcases Nat.lt_trichotomy m self.conns.length with hlt | rfl | hgt
    · rw [List.getElem?_append_left hlt] at hm
      exact (h.conns m conn hm).untouched (hquiet m).1 (hquiet m).2
    · rw [List.getElem?_concat_length] at hm
      obtain rfl := Option.some.inj hm
      obtain ⟨hmessages, horders⟩ := h.untold _ le_rfl
      refine ⟨⟨[], ?_, ?_, ?_⟩, Task.new_settled _ _ _⟩
      · exact Task.new_follows (if outbound then .initiator else .responder) self.identity entropy
          Ruxmsg.rekeyMessageLimit (!outbound) world
      · rw [messagesTo_snoc, (hquiet _).1, hmessages]
        rfl
      · refine ⟨[], ?_, .inl rfl⟩
        rw [ordersTo_snoc, (hquiet _).2, horders]
        rfl
    · rw [List.getElem?_eq_none (by rw [List.length_append]; exact hgt)] at hm
      cases hm
  · intro m hm
    rw [hconns, Facade.spawn, List.length_append] at hm
    rw [messagesTo_snoc, ordersTo_snoc, (hquiet m).1, (hquiet m).2, (h.untold m (by omega)).1,
      (h.untold m (by omega)).2]
    exact ⟨rfl, rfl⟩

theorem Facade.Does.sound (h : self.Does incident self') (hs : self.Sound past) :
    self'.Sound (past ++ [incident]) := by
  have hquiet {n : Nat} {conn : Spawned} (hconn : self.conns[n]? = some conn)
      (h : incident.message? n = none ∧ incident.order? n = none) :
      conn.Sound self.identity (past ++ [incident]) n :=
    (hs.conns n conn hconn).untouched h.1 h.2
  cases h with
  | accepts | connects => exact hs.spawn _ _ _ _ rfl rfl fun _ => ⟨rfl, rfl⟩
  | reports | takes | deafens => exact hs.kept rfl rfl fun _ => ⟨rfl, rfl⟩
  | passes hconn =>
      have hsound := hquiet hconn ⟨rfl, rfl⟩
      exact hs.set rfl rfl hconn ⟨hsound.run, hsound.settled⟩ fun _ _ => ⟨rfl, rfl⟩
  | ends hconn =>
      have hsound := hquiet hconn ⟨rfl, rfl⟩
      exact hs.set rfl rfl hconn ⟨hsound.run, hsound.settled⟩ fun _ _ => ⟨rfl, rfl⟩
  | starts hconn =>
      refine hs.set rfl rfl hconn ?_ fun _ _ => ⟨rfl, rfl⟩
      exact (hs.conns _ _ hconn).start .running
  | wakes hconn hspends _ hstill =>
      exact hs.set rfl rfl hconn ((hs.conns _ _ hconn).wake hstill hspends .running) fun _ _ => ⟨rfl, rfl⟩
  | @sends n content conn hconn _ _ =>
      obtain ⟨inputs, hfollows, hsends, horders⟩ := (hs.conns n conn hconn).run
      refine hs.set rfl rfl hconn ⟨⟨inputs, hfollows, ?_, ?_⟩, (hs.conns n conn hconn).settled⟩ ?_
      · rw [messagesTo_snoc, List.map_append, List.map_append, ← hsends, List.append_assoc]
        simp [Incident.message?]
      · exact horders.kept rfl (List.append_nil _).symm
      · intro m hm
        simp [Incident.message?, Incident.order?, hm.symm]
  | @orders n control conn hconn _ _ =>
      obtain ⟨inputs, hfollows, hsends, horders⟩ := (hs.conns n conn hconn).run
      refine hs.set rfl rfl hconn ⟨⟨inputs, hfollows, ?_, ?_⟩, (hs.conns n conn hconn).settled⟩ ?_
      · rw [messagesTo_snoc]
        simpa [Incident.message?] using hsends
      · refine horders.kept ?_ ?_
        · rfl
        · simp [Incident.order?]
      · intro m hm
        simp [Incident.message?, Incident.order?, hm.symm]

theorem Facade.new_sound (identity : IdentityKeypair) : (Facade.new identity).Sound [] where
  conns := by
    intro n conn h
    cases h
  untold := fun _ _ => ⟨rfl, rfl⟩

theorem Facade.Does.identity_eq (h : self.Does incident self') : self'.identity = self.identity := by
  cases h <;> rfl

theorem Facade.runs_identity (identity : IdentityKeypair) {past : List Incident}
    (h : reads Facade.step (.new identity) past = some self) : self.identity = identity :=
  reads_induction (fun _ self => self.identity = identity) rfl
    (fun _ _ _ _ hs hstep => (Facade.step_does hstep).identity_eq.trans hs) h

/-- After any run the connections are sound. -/
theorem Facade.runs_sound (identity : IdentityKeypair) {past : List Incident}
    (h : reads Facade.step (.new identity) past = some self) : self.Sound past :=
  reads_induction (fun past self => Facade.Sound past self) (Facade.new_sound identity)
    (fun _ _ _ _ hs hstep => (Facade.step_does hstep).sound hs) h

def Facade.Bounded (facade : Facade) : Prop := ∀ conn ∈ facade.conns, conn.Bounded

omit [Ciborium] [Primitives] in
theorem Facade.Bounded.set (h : self.Bounded) {conn : Spawned} (hconns : self'.conns = self.conns.set n conn)
    (hconn : conn.Bounded) : self'.Bounded := by
  intro other hother
  rw [hconns] at hother
  rcases List.mem_or_eq_of_mem_set hother with hother | rfl
  · exact h other hother
  · exact hconn

omit [Ciborium] [Primitives] in
theorem Facade.Bounded.spawn (h : self.Bounded) (remote : Text) (outbound : Bool) (entropy : Entropy) (world : World) :
    (self.spawn remote outbound entropy world).Bounded := by
  intro conn hconn
  rcases List.mem_append.1 hconn with hconn | hconn
  · exact h conn hconn
  · obtain rfl := List.mem_singleton.1 hconn
    exact ⟨Nat.zero_le _, Nat.zero_le _⟩

theorem Facade.Does.bounded (h : self.Does incident self') (hb : self.Bounded) : self'.Bounded := by
  have hold {n : Nat} {conn : Spawned} (hconn : self.conns[n]? = some conn) : conn.Bounded :=
    hb conn (List.mem_of_getElem? hconn)
  cases h with
  | accepts | connects => exact hb.spawn _ _ _ _
  | reports | takes | deafens => exact hb
  | passes hconn | starts hconn | ends hconn => exact hb.set rfl ⟨(hold hconn).messages, (hold hconn).control⟩
  | wakes hconn hspends =>
      have hconn' := (hold hconn).spends hspends
      exact hb.set rfl ⟨hconn'.messages, hconn'.control⟩
  | sends hconn _ hroom =>
      refine hb.set rfl ⟨?_, (hold hconn).control⟩
      rw [List.length_append]
      exact hroom
  | orders hconn _ hroom =>
      refine hb.set rfl ⟨(hold hconn).messages, ?_⟩
      rw [List.length_append]
      exact hroom

end Sound

end Ruxmsg.Cli

namespace Ruxmsg.Cli

open Library.Grammar Library.Machine Ruxmsg.Sample

end Ruxmsg.Cli

import Ruxmsg.Cli.Approvals
import Ruxmsg.Cli.Handles

namespace Ruxmsg.Cli

open Library Library.Grammar Library.Machine

theorem connId_inj {m n : Nat} (hm : m < 2 ^ 64) (hn : n < 2 ^ 64) (h : connId m = connId n) : m = n := by
  have hvalue := congrArg (fun id : ConnId => id.value.toNat) h
  simp only [connId, UInt64.toNat_ofNat'] at hvalue
  omega

/-- All that a connection has told or is about to tell the receiver. -/
def Spawned.said (self : Spawned) (n : Nat) : List NetEvent :=
  .opened ⟨connId n⟩ self.remote self.outbound :: self.task.events.map (.conn (connId n))

def eventsOf (id : ConnId) (events : List NetEvent) : List NetEvent := events.filter (·.connection = some id)

theorem eventsOf_append (id : ConnId) (events events' : List NetEvent) :
    eventsOf id (events ++ events') = eventsOf id events ++ eventsOf id events' := List.filter_append ..

structure Facade.Flows (facade : Facade) : Prop where
  owned : facade.events.Owned NetEvent.connection
  room : facade.events.queue.length ≤ eventQueue
  flows : ∀ n (conn : Spawned), facade.conns[n]? = some conn → ∃ lost, (facade.heard = true → lost = []) ∧
    eventsOf (connId n) facade.received ++ facade.events.inFlight NetEvent.connection (connId n) ++ lost = conn.said n
  strangers : ∀ id, (∀ n < facade.conns.length, id ≠ connId n) →
    eventsOf id facade.received = [] ∧ facade.events.inFlight NetEvent.connection id = []

section Flows

variable {self self' : Facade} {n : Nat} {conn conn' : Spawned}

theorem Facade.new_flows (identity : IdentityKeypair) : (Facade.new identity).Flows where
  owned := Channel.empty_owned
  room := Nat.zero_le _
  flows := by
    intro n conn h
    cases h
  strangers := fun _ _ => ⟨rfl, rfl⟩

theorem Facade.Flows.kept (h : self.Flows) (hconns : self'.conns.length = self.conns.length)
    (hsaid : ∀ (n : Nat) (conn' : Spawned), self'.conns[n]? = some conn' →
      ∃ conn : Spawned, self.conns[n]? = some conn ∧ conn.said n = conn'.said n)
    (howned : self'.events.Owned NetEvent.connection) (hroom : self'.events.queue.length ≤ eventQueue)
    (hheard : self'.heard = true → self.heard = true)
    (hsame : ∀ id, eventsOf id self'.received ++ self'.events.inFlight NetEvent.connection id =
      eventsOf id self.received ++ self.events.inFlight NetEvent.connection id) : self'.Flows where
  owned := howned
  room := hroom
  flows := by
    intro n conn' hn
    obtain ⟨conn, hn, hconn⟩ := hsaid n conn' hn
    obtain ⟨lost, hlost, hflows⟩ := h.flows n conn hn
    exact ⟨lost, fun h => hlost (hheard h), by rw [hsame, hflows, hconn]⟩
  strangers := by
    intro id hid
    rw [hconns] at hid
    obtain ⟨hreceived, hflight⟩ := h.strangers id hid
    have hnone := hsame id
    rw [hreceived, hflight] at hnone
    exact List.append_eq_nil_iff.1 hnone

theorem said_of_set (hn : self.conns[n]? = some conn) (hconn : conn'.said n = conn.said n) (m : Nat) (other : Spawned)
    (hm : (self.conns.set n conn')[m]? = some other) :
    ∃ conn : Spawned, self.conns[m]? = some conn ∧ conn.said m = other.said m := by
  have hlt : n < self.conns.length := (List.getElem?_eq_some_iff.1 hn).1
  rw [List.getElem?_set] at hm
  by_cases hne : n = m
  · subst hne
    rw [if_pos rfl, if_pos hlt] at hm
    obtain rfl := Option.some.inj hm
    exact ⟨conn, hn, hconn.symm⟩
  · rw [if_neg hne] at hm
    exact ⟨other, hm, rfl⟩

theorem Facade.Flows.spawn (h : self.Flows) (hlt : self.conns.length < 2 ^ 64) (remote : Text) (outbound : Bool)
    (entropy : Entropy) (world : World) : (self.spawn remote outbound entropy world).Flows := by
  have hother {m : Nat} (hm : m < self.conns.length) : connId m ≠ connId self.conns.length :=
    fun hid => absurd (connId_inj (hm.trans hlt) hlt hid) hm.ne
  have hnew := h.strangers (connId self.conns.length) fun m hm => (hother hm).symm
  have hflight (id : ConnId) (hid : id ≠ connId self.conns.length) :
      (self.spawn remote outbound entropy world).events.inFlight NetEvent.connection id =
        self.events.inFlight NetEvent.connection id := by
    rw [Facade.spawn]
    dsimp only
    split
    · exact Channel.inFlight_offer_of_ne hid
    · rfl
  refine
    { owned := ?_
      room := ?_
      flows := ?_
      strangers := ?_ }
  · rw [Facade.spawn]
    dsimp only
    split
    · apply h.owned.offer
      intro event hevent
      obtain rfl := List.mem_singleton.1 hevent
      rfl
    · exact h.owned
  · rw [Facade.spawn]
    dsimp only
    split <;> exact h.room
  · intro m conn hm
    rw [Facade.spawn] at hm
    rcases Nat.lt_trichotomy m self.conns.length with hm' | rfl | hm'
    · rw [List.getElem?_append_left hm'] at hm
      obtain ⟨lost, hlost, hflows⟩ := h.flows m conn hm
      exact ⟨lost, hlost, by rw [hflight _ (hother hm')]; exact hflows⟩
    · rw [List.getElem?_concat_length] at hm
      obtain rfl := Option.some.inj hm
      cases hheard : self.heard with
      | true =>
          refine ⟨[], fun _ => rfl, ?_⟩
          have hevents : (self.spawn remote outbound entropy world).events =
              self.events.offer (connId self.conns.length)
                [.opened ⟨connId self.conns.length⟩ remote outbound] := by
            rw [Facade.spawn, hheard]
            rfl
          rw [hevents, Channel.inFlight_offer, hnew.2, Facade.spawn, hnew.1]
          rfl
      | false =>
          refine ⟨[.opened ⟨connId self.conns.length⟩ remote outbound], ?_, ?_⟩
          · intro hheard'
            cases hheard.symm.trans hheard'
          · have hevents : (self.spawn remote outbound entropy world).events = self.events := by
              rw [Facade.spawn, hheard]
              rfl
            rw [hevents, hnew.2, Facade.spawn, hnew.1]
            rfl
    · rw [List.getElem?_eq_none (by rw [List.length_append]; exact hm')] at hm
      cases hm
  · intro id hid
    rw [Facade.spawn, List.length_append] at hid
    rw [hflight id (hid _ (Nat.lt_succ_self _))]
    exact h.strangers id fun m hm => hid m (Nat.lt_succ_of_lt hm)

/-- What a task tells after it went on gets on its way. -/
theorem Facade.Flows.advance (h : self.Flows) (hle : self.conns.length ≤ 2 ^ 64) (hn : self.conns[n]? = some conn)
    (hsame : ∃ messages control, conn' = { conn with messages, control }) {task : Task}
    (htask : conn.task.events <+: task.events) : (self.advance n conn' task).Flows := by
  obtain ⟨messages, control, rfl⟩ := hsame
  have hlt : n < self.conns.length := (List.getElem?_eq_some_iff.1 hn).1
  obtain ⟨news, hnews⟩ := htask
  have hdrop : task.events.drop conn.task.events.length = news := by
    rw [← hnews]
    exact List.drop_left
  have hevents : (self.advance n { conn with messages, control } task).events =
      if self.heard then self.events.offer (connId n) (news.map (.conn (connId n))) else self.events := by
    rw [Facade.advance]
    dsimp only
    rw [hdrop]
  have hflight (id : ConnId) (hid : id ≠ connId n) :
      (self.advance n { conn with messages, control } task).events.inFlight NetEvent.connection id =
        self.events.inFlight NetEvent.connection id := by
    rw [hevents]
    split
    · exact Channel.inFlight_offer_of_ne hid
    · rfl
  refine
    { owned := ?_
      room := ?_
      flows := ?_
      strangers := ?_ }
  · rw [hevents]
    split
    · apply h.owned.offer
      intro event hevent
      obtain ⟨event, -, rfl⟩ := List.mem_map.1 hevent
      rfl
    · exact h.owned
  · rw [hevents]
    split <;> exact h.room
  · intro m other hm
    rw [Facade.advance, List.getElem?_set] at hm
    by_cases hne : n = m
    · subst hne
      rw [if_pos rfl, if_pos hlt] at hm
      obtain rfl := Option.some.inj hm
      obtain ⟨lost, hlost, hflows⟩ := h.flows n conn hn
      have hsaid : Spawned.said { conn with messages, control, life := .running, task } n =
          conn.said n ++ news.map (.conn (connId n)) := by
        rw [Spawned.said, Spawned.said, ← hnews, List.map_append]
        rfl
      cases hheard : self.heard with
      | true =>
          refine ⟨[], fun _ => rfl, ?_⟩
          rw [hsaid, ← hflows, hlost hheard, hevents, hheard, if_pos rfl, Channel.inFlight_offer, List.append_nil,
            List.append_nil, ← List.append_assoc]
          rfl
      | false =>
          refine ⟨lost ++ news.map (.conn (connId n)), ?_, ?_⟩
          · intro hheard'
            cases hheard.symm.trans hheard'
          · rw [hsaid, ← hflows, hevents, hheard, if_neg Bool.false_ne_true, List.append_assoc _ lost]
            rfl
    · rw [if_neg hne] at hm
      obtain ⟨lost, hlost, hflows⟩ := h.flows m other hm
      have hlt' : m < self.conns.length := (List.getElem?_eq_some_iff.1 hm).1
      refine ⟨lost, hlost, ?_⟩
      rw [hflight _ fun hid => hne (connId_inj (hlt'.trans_le hle) (hlt.trans_le hle) hid).symm]
      exact hflows
  · intro id hid
    rw [Facade.advance, List.length_set] at hid
    rw [hflight id (hid n hlt)]
    exact h.strangers id hid

variable [Ciborium] [Primitives]

theorem Facade.Does.length_le {incident : Incident} (h : self.Does incident self') :
    self.conns.length ≤ self'.conns.length := by
  cases h with
  | accepts | connects =>
      rw [Facade.spawn, List.length_append]
      exact Nat.le_add_right ..
  | starts | wakes =>
      rw [Facade.advance, List.length_set]
  | passes | ends | sends | orders => rw [List.length_set]
  | reports | takes | deafens => exact le_rfl

theorem Facade.Does.flows {incident : Incident} (h : self.Does incident self') (hf : self.Flows)
    (hle : self'.conns.length ≤ 2 ^ 64) : self'.Flows := by
  have hle' := h.length_le.trans hle
  cases h with
  | @accepts remote entropy world =>
      rw [Facade.spawn, List.length_append] at hle
      have hspawn := hf.spawn (Nat.lt_of_succ_le hle) remote false entropy world
      exact ⟨hspawn.owned, hspawn.room, hspawn.flows, hspawn.strangers⟩
  | connects =>
      rw [Facade.spawn, List.length_append] at hle
      exact hf.spawn (Nat.lt_of_succ_le hle) _ true _ _
  | reports _ hroom hforeign =>
      refine hf.kept rfl (fun _ other hm => ⟨other, hm, rfl⟩) hf.owned.put ?_ id ?_
      · rw [Channel.put, List.length_append]
        exact hroom
      · intro id
        rw [Channel.inFlight_put hforeign]
  | passes hn hpass _ hroom =>
      obtain ⟨_, _, -, hqueue, -⟩ := Channel.pass_eq_some hpass
      refine hf.kept (List.length_set ..) (fun m other hm => said_of_set hn (by rfl) m other hm)
        (hf.owned.pass hpass) ?_ id ?_
      · rw [hqueue, List.length_append]
        exact hroom
      · intro id
        rw [Channel.inFlight_pass hf.owned hpass]
  | starts hn => exact hf.advance hle' hn ⟨_, _, rfl⟩ (Task.apply_later ..).events
  | wakes hn hspends =>
      obtain ⟨hsame, -⟩ := Spawned.spends_eq_some hspends
      refine hf.advance hle' hn hsame ?_
      obtain ⟨_, _, rfl⟩ := hsame
      exact (Task.wake_later ..).events
  | ends hn | sends hn | orders hn =>
      exact hf.kept (List.length_set ..) (fun m other hm => said_of_set hn (by rfl) m other hm) hf.owned hf.room id
        fun _ => rfl
  | @takes event events hpop =>
      refine hf.kept rfl (fun _ other hm => ⟨other, hm, rfl⟩) (hf.owned.pop hpop) ?_ id ?_
      · have hlength := Channel.length_pop hpop
        have hroom := hf.room
        exact (by omega : events.queue.length ≤ eventQueue)
      · intro id
        rw [Channel.inFlight_pop hpop, eventsOf_append, List.append_assoc]
        rfl
  | deafens =>
      refine hf.kept rfl (fun _ other hm => ⟨other, hm, rfl⟩) hf.owned hf.room ?_ fun _ => rfl
      intro h
      cases h

theorem Facade.runs_flows (identity : IdentityKeypair) {past : List Incident}
    (h : reads Facade.step (.new identity) past = some self) (hle : self.conns.length ≤ 2 ^ 64) : self.Flows := by
  have hrun := reads_induction (fun _ self => self.conns.length ≤ 2 ^ 64 → self.Flows)
    (fun _ => Facade.new_flows identity)
    (fun _ _ _ _ hs hstep hle =>
      (Facade.step_does hstep).flows (hs ((Facade.step_does hstep).length_le.trans hle)) hle) h
  exact hrun hle

end Flows

section Order

def Part (id : ConnId) (events : List NetEvent) : Prop :=
  events = [] ∨ ∃ remote outbound told, Voiced told ∧
    events = .opened ⟨id⟩ remote outbound :: told.map (.conn id)

variable {id : ConnId} {events before after : List NetEvent} {event : NetEvent}

theorem eventsOf_split (h : event.connection = some id) :
    eventsOf id (before ++ event :: after) = eventsOf id before ++ event :: eventsOf id after := by
  rw [eventsOf_append]
  congr 1
  exact List.filter_cons_of_pos (by simpa using h)

theorem mem_eventsOf (hevent : event ∈ events) (h : event.connection = some id) : event ∈ eventsOf id events :=
  List.mem_filter.2 ⟨hevent, by simpa using h⟩

theorem NetEvent.connection_of_closes (h : event.closes id) : event.connection = some id := by
  obtain ⟨cause, rfl⟩ := NetEvent.closes_iff.1 h
  rfl

theorem Part.left {part part' : List NetEvent} (h : Part id (part ++ part')) : Part id part := by
  cases part with
  | nil => exact .inl rfl
  | cons first part =>
      rcases h with h | ⟨remote, outbound, told, hvoiced, h⟩
      · cases h
      · obtain ⟨rfl, hrest⟩ := List.cons.inj h
        obtain ⟨told, told', rfl, rfl, -⟩ := List.map_eq_append_iff.1 hrest.symm
        refine .inr ⟨remote, outbound, told, ⟨?_, ?_⟩, rfl⟩
        · exact (List.pairwise_append.1 hvoiced.final).1
        · exact (List.pairwise_append.1 hvoiced.once).1

theorem Part.opened {handle : ConnectionHandle} {remote : Text} {outbound : Bool} {part part' : List NetEvent}
    (h : Part id (part ++ .opened handle remote outbound :: part')) : part = [] := by
  rcases h with h | ⟨_, _, told, -, h⟩
  · cases (List.append_eq_nil_iff.1 h).2
  · cases part with
    | nil => rfl
    | cons first part =>
        obtain ⟨-, hrest⟩ := List.cons.inj h
        have hmem : NetEvent.opened handle remote outbound ∈ told.map (.conn id) := by
          rw [← hrest]
          exact List.mem_append_right _ List.mem_cons_self
        obtain ⟨_, -, h⟩ := List.mem_map.1 hmem
        cases h

theorem Part.told {told : ConnEvent} {part part' : List NetEvent} (h : Part id (part ++ .conn id told :: part')) :
    (∃ earlier ∈ part, earlier.opens id) ∧ ∀ earlier ∈ part, ¬ earlier.closes id := by
  rcases h with h | ⟨remote, outbound, all, hvoiced, h⟩
  · cases (List.append_eq_nil_iff.1 h).2
  · cases part with
    | nil =>
        obtain ⟨h, -⟩ := List.cons.inj h
        cases h
    | cons first part =>
        obtain ⟨rfl, hrest⟩ := List.cons.inj h
        refine ⟨⟨_, List.mem_cons_self, decide_eq_true rfl⟩, ?_⟩
        obtain ⟨past, future, rfl, rfl, hfuture⟩ := List.map_eq_append_iff.1 hrest.symm
        obtain ⟨last, future, rfl, -, -⟩ := List.map_eq_cons_iff.1 hfuture
        intro earlier hearlier hcloses
        obtain ⟨cause, rfl⟩ := NetEvent.closes_iff.1 hcloses
        rcases List.mem_cons.1 hearlier with h | hmem
        · cases h
        · obtain ⟨event, hevent, heq⟩ := List.mem_map.1 hmem
          obtain rfl : event = .closed cause := by simpa using heq
          cases (List.pairwise_append.1 hvoiced.final).2.2 _ hevent last List.mem_cons_self

theorem orderly_of_parts (h : ∀ id, Part id (eventsOf id events)) : Orderly events := by
  rintro before event after rfl
  cases event with
  | opened handle remote outbound =>
      have hpart := h handle.id
      rw [eventsOf_split rfl] at hpart
      intro earlier hearlier hid
      have hmem := mem_eventsOf hearlier hid
      rw [hpart.opened] at hmem
      cases hmem
  | conn id told =>
      have hpart := h id
      rw [eventsOf_split rfl] at hpart
      obtain ⟨⟨earlier, hearlier, hopens⟩, hsilent⟩ := hpart.told
      refine ⟨⟨earlier, (List.mem_filter.1 hearlier).1, hopens⟩, ?_⟩
      intro earlier hearlier hcloses
      exact hsilent earlier (mem_eventsOf hearlier (NetEvent.connection_of_closes hcloses)) hcloses
  | dialFailed | listenerStopped => trivial

theorem NetEvent.connection_of_asks (h : event.asks id) : event.connection = some id := by
  rw [NetEvent.asks.eq_def] at h
  split at h
  · exact congrArg some (of_decide_eq_true h)
  · cases h

theorem asked_eventsOf : asked id (eventsOf id events) = asked id events := by
  rw [asked, eventsOf, List.countP_filter, asked]
  apply List.countP_congr
  intro event _
  constructor
  · intro h
    exact (Bool.and_eq_true_iff.1 h).1
  · intro h
    rw [h, NetEvent.connection_of_asks h]
    simp

theorem countP_le_one {told : List ConnEvent} (h : told.Pairwise fun a b => a.asks = true → b.asks = false) :
    told.countP ConnEvent.asks ≤ 1 := by
  induction h with
  | nil => exact Nat.zero_le 1
  | @cons a told hfirst _ ih =>
      cases ha : a.asks with
      | false =>
          rw [List.countP_cons_of_neg (by simp [ha])]
          exact ih
      | true =>
          rw [List.countP_cons_of_pos ha, List.countP_eq_zero.2 fun b hb => by simp [hfirst b hb ha]]

theorem Part.asked_le (h : Part id (eventsOf id events)) : asked id events ≤ 1 := by
  rw [← asked_eventsOf]
  rcases h with h | ⟨remote, outbound, told, hvoiced, h⟩
  · rw [h]
    exact Nat.zero_le 1
  · have hasks : NetEvent.asks id ∘ NetEvent.conn id = ConnEvent.asks := by
      funext event
      cases event <;> simp [NetEvent.asks, ConnEvent.asks]
    rw [h, asked, List.countP_cons_of_neg (by simp [NetEvent.asks]), List.countP_map, hasks]
    exact countP_le_one hvoiced.once

variable [Ciborium] [Primitives]

theorem Spawned.Sound.voiced {identity : IdentityKeypair} {past : List Incident} {n : Nat} {conn : Spawned}
    (h : conn.Sound identity past n) : Voiced conn.task.events := by
  obtain ⟨inputs, hfollows, -⟩ := h.run
  obtain ⟨stage, hreads, -⟩ := hfollows.stage
  exact voiced_of_reads hreads hfollows.events

theorem Facade.Flows.parts {past : List Incident} {self : Facade} (h : self.Flows) (hs : self.Sound past)
    (id : ConnId) : Part id (eventsOf id self.received) := by
  by_cases hid : ∀ n < self.conns.length, id ≠ connId n
  · rw [(h.strangers id hid).1]
    exact .inl rfl
  · simp only [not_forall, not_not] at hid
    obtain ⟨n, hn, rfl⟩ := hid
    obtain ⟨lost, -, hflows⟩ := h.flows n _ (List.getElem?_eq_getElem hn)
    have hvoiced := (hs.conns n _ (List.getElem?_eq_getElem hn)).voiced
    have hsaid : Part (connId n) (Spawned.said self.conns[n] n) := .inr ⟨_, _, _, hvoiced, rfl⟩
    rw [← hflows, List.append_assoc] at hsaid
    exact hsaid.left

/-- However the connections of a facade interleave, its receiver hears each of
them in order: it opens first, asks once at most, and its end comes last. What
one has told is received, in the bounded queue or waiting to get into it, with no
event lost, repeated or out of order while there is a receiver, and what is
received of a connection is of one that was spawned. -/
theorem receiver_hears_in_order (identity : IdentityKeypair) (past : List Incident) (self : Facade)
    (h : reads Facade.step (.new identity) past = some self) (hle : self.conns.length ≤ 2 ^ 64) :
    Orderly self.received ∧ (∀ id, asked id self.received ≤ 1) ∧ self.events.queue.length ≤ eventQueue ∧
      (∀ n (conn : Spawned), self.conns[n]? = some conn → ∃ lost, (self.heard = true → lost = []) ∧
        eventsOf (connId n) self.received ++ self.events.inFlight NetEvent.connection (connId n) ++ lost =
          conn.said n) ∧
      ∀ event ∈ self.received, ∀ id, event.connection = some id → ∃ n < self.conns.length, id = connId n := by
  have hflows := Facade.runs_flows identity h hle
  have hsound := Facade.runs_sound identity h
  refine ⟨orderly_of_parts (hflows.parts hsound), fun id => (hflows.parts hsound id).asked_le, hflows.room,
    hflows.flows, ?_⟩
  intro event hevent id hid
  by_contra hnone
  push Not at hnone
  have hempty := (hflows.strangers id hnone).1
  have hmem := mem_eventsOf hevent hid
  rw [hempty] at hmem
  cases hmem

end Order

end Ruxmsg.Cli

namespace Ruxmsg.Cli

open Library.Grammar Ruxmsg.Sample

/-- The announcement is heard, and what the message came to is in the queue. -/
theorem receiver_hears_in_order_arriving : ∃ (self : Facade) (conn : Spawned),
    reads Facade.step (.new leftIdentity) Sample.arriving = some self ∧ self.conns[0]? = some conn ∧
      Orderly self.received ∧
      eventsOf (connId 0) self.received ++ self.events.inFlight NetEvent.connection (connId 0) = conn.said 0 := by
  have hrun : ((reads Facade.step (.new leftIdentity) Sample.arriving).any fun self =>
      self.conns.length = 1 ∧ self.heard = true) = true := by
    decide +kernel
  obtain ⟨self, hself, hone⟩ := (Option.any_eq_true _ _).1 hrun
  obtain ⟨hlength, hheard⟩ := of_decide_eq_true hone
  obtain ⟨conn, hconns⟩ := List.length_eq_one_iff.1 hlength
  have hconn : self.conns[0]? = some conn := by rw [hconns]; rfl
  have hhears := receiver_hears_in_order leftIdentity Sample.arriving self hself (by rw [hlength]; exact Nat.one_le_two_pow)
  obtain ⟨lost, hlost, hflows⟩ := hhears.2.2.2.1 0 conn hconn
  rw [hlost hheard, List.append_nil] at hflows
  exact ⟨self, conn, hself, hconn, hhears.1, hflows⟩

end Ruxmsg.Cli

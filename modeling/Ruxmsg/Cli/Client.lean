import Ruxmsg.Cli.Inbox
import Ruxmsg.Cli.Talks

namespace Ruxmsg.Cli

open Library Library.Grammar Library.Machine

def ConnId.place (id : ConnId) : Nat := (id.value - 1).toNat

theorem connId_place (id : ConnId) : connId id.place = id := by
  rw [connId, ConnId.place, UInt64.ofNat_add, UInt64.ofNat_toNat]
  exact congrArg ConnId.mk (UInt64.sub_add_cancel id.value 1)

theorem place_connId {n : Nat} (h : n < 2 ^ 64) : (connId n).place = n := by
  rw [ConnId.place, connId, UInt64.ofNat_add]
  rw [show (UInt64.ofNat n + UInt64.ofNat 1 - 1) = UInt64.ofNat n from UInt64.add_sub_cancel _ _, UInt64.toNat_ofNat',
    Nat.mod_eq_of_lt h]

/-- What a call on a handle is to the facade, if the handle takes it. -/
def Call.incident? : Call → Option Incident
  | .sendMessage id content => some (.sends id.place content)
  | .close id reason => some (.orders id.place (.close reason))
  | .requestRekey id => some (.orders id.place .requestRekey)
  | .answerSas id approved => some (.orders id.place (.sas approved))
  | _ => none

def Facade.refuses (self : Facade) (error : HandleError) : Incident → Bool
  | .sends n content =>
      self.conns[n]?.any fun conn =>
        match conn.sendMessage content with
        | .error error' => error' = error
        | .ok _ => false
  | .orders n control =>
      self.conns[n]?.any fun conn =>
        match conn.sendControl control with
        | .error error' => error' = error
        | .ok _ => false
  | _ => false

def Incident.spontaneous : Incident → Bool
  | .sends _ _ | .orders _ _ | .takes | .deafens => false
  | _ => true

/-- What a turn of the client asks of the handles and is granted. -/
def Turned.taken (turned : Turned) : List Incident :=
  if turned.input.1.handle = .ok () then turned.out.2.filterMap Call.incident? else []

variable [Ciborium] [Primitives]

/-- A facade with all that has happened to it, and what the client has handled
since it was made. -/
structure Era where
  identity : IdentityKeypair
  happened : List Incident
  facade : Facade
  run : reads Facade.step (.new identity) happened = some facade
  turns : List Turned

namespace Era

def new (identity : IdentityKeypair) : Era :=
  { identity, happened := [], facade := .new identity, run := rfl, turns := [] }

def occurs (self : Era) (incident : Incident) : Option Era :=
  match h : self.facade.step incident with
  | none => none
  | some facade =>
      some { self with
        happened := self.happened ++ [incident]
        facade
        run := reads_append_some Facade.step self.run (by rw [reads, h]; rfl) }

def deafen (self : Era) : Era :=
  { self with
    happened := self.happened ++ [.deafens]
    facade := { self.facade with heard := false }
    run := reads_append_some Facade.step self.run rfl }

def perform (replies : Replies) (self : Era) (call : Call) : Option Era :=
  match call.incident? with
  | none => some self
  | some incident =>
      match replies.handle with
      | .ok () => self.occurs incident
      | .error error => if self.facade.refuses error incident then some self else none

def serves (self : Era) (turned : Turned) : Option Era := do
  let self ← turned.out.2.foldlM (perform turned.input.1) self
  return { self with turns := self.turns ++ [turned] }

end Era

/-- A running client with the facades of all profiles it has used, the newest
first. -/
structure Client where
  app : App
  eras : List Era

/-- What can happen to a client and its facades, in any order. -/
inductive Happening
  /-- Whatever comes from the terminal; a profile may be switched to. -/
  | handles (profile : Option IdentityKeypair) (replies : Replies) (input : Input)
  | hears (replies : Replies)
  | occurs (era : Nat) (incident : Incident)

namespace Client

def new (keys : KeyMap) : Client := { app := .new keys, eras := [] }

def past (self : Client) : List Turned := self.eras.head?.elim [] Era.turns

def received (self : Client) : List NetEvent := self.eras.head?.elim [] fun era => era.facade.received

/-- A turn at the facades. Without one there are no handles. -/
def served (turned : Turned) : List Era → Option (List Era)
  | [] => if turned.out.2.all fun call => call.handle? = none then some [] else none
  | era :: eras => (era.serves turned).map (· :: eras)

def turn (self : Client) (profile : Option IdentityKeypair) (replies : Replies) (input : Input) : Option Client := do
  let turned := record App.step self.app (replies, input)
  let eras ← served turned self.eras
  if .newNet ∈ turned.out.2 then
    let identity ← profile
    if turned.post.net.any fun net => net.identity = identity.identity then
      some { app := turned.post, eras := .new identity :: eras.modifyHead Era.deafen }
    else none
  else some { app := turned.post, eras }

def step (self : Client) : Happening → Option Client
  | .handles profile replies input =>
      if input.event?.isNone then self.turn profile replies input else none
  | .hears replies =>
      match self.eras with
      | [] => none
      | era :: eras => do
          let (event, _) ← era.facade.events.pop
          let era ← era.occurs .takes
          Client.turn { self with eras := era :: eras } none replies (.net event)
  | .occurs n incident =>
      if incident.spontaneous then do
        let era ← self.eras[n]?
        let era ← era.occurs incident
        some { self with eras := self.eras.set n era }
      else none

end Client

section Eras

variable {era era' : Era} {replies : Replies} {turned : Turned}

theorem Era.occurs_eq_some {incident : Incident} (h : era.occurs incident = some era') :
    era.facade.Does incident era'.facade ∧ era'.identity = era.identity ∧
      era'.happened = era.happened ++ [incident] ∧ era'.turns = era.turns := by
  rw [Era.occurs] at h
  split at h
  · cases h
  · next facade hstep =>
    obtain rfl := Option.some.inj h
    exact ⟨Facade.step_does hstep, rfl, rfl, rfl⟩

/-- An era in which no more has happened than that handles took something. -/
structure Era.Gives (era : Era) (more : List Incident) (era' : Era) : Prop where
  identity_eq : era'.identity = era.identity
  happened_eq : era'.happened = era.happened ++ more
  turns_eq : era'.turns = era.turns
  received_eq : era'.facade.received = era.facade.received
  length_eq : era'.facade.conns.length = era.facade.conns.length

theorem Era.perform_gives {call : Call} (h : Era.perform replies era call = some era') :
    era.Gives (if replies.handle = .ok () then call.incident?.toList else []) era' := by
  rw [Era.perform] at h
  split at h
  · next hnone =>
    obtain rfl := Option.some.inj h
    rw [hnone, Option.toList_none, ite_self]
    exact ⟨rfl, (List.append_nil _).symm, rfl, rfl, rfl⟩
  · next incident hincident =>
    split at h
    · next hok =>
      obtain ⟨hdoes, hidentity, hhappened, hturns⟩ := Era.occurs_eq_some h
      rw [if_pos hok, hincident]
      have hsame : era'.facade.received = era.facade.received ∧
          era'.facade.conns.length = era.facade.conns.length := by
        generalize era'.facade = facade at hdoes ⊢
        cases hdoes with
        | sends | orders => exact ⟨rfl, List.length_set ..⟩
        | _ => cases call <;> cases hincident
      exact ⟨hidentity, hhappened, hturns, hsame.1, hsame.2⟩
    · next error herror =>
      obtain ⟨-, h⟩ := Option.ite_none_right_eq_some.1 h
      obtain rfl := Option.some.inj h
      rw [if_neg (by simp [herror])]
      exact ⟨rfl, (List.append_nil _).symm, rfl, rfl, rfl⟩

theorem Era.performs_give {calls : List Call} (h : calls.foldlM (Era.perform replies) era = some era') :
    era.Gives (if replies.handle = .ok () then calls.filterMap Call.incident? else []) era' := by
  induction calls generalizing era with
  | nil =>
      obtain rfl := Option.some.inj h
      rw [List.filterMap_nil, ite_self]
      exact ⟨rfl, (List.append_nil _).symm, rfl, rfl, rfl⟩
  | cons call calls ih =>
      rw [List.foldlM_cons] at h
      obtain ⟨middle, hfirst, hrest⟩ := Option.bind_eq_some_iff.1 h
      have hgives := Era.perform_gives hfirst
      have hgives' := ih hrest
      refine ⟨hgives'.identity_eq.trans hgives.identity_eq, ?_, hgives'.turns_eq.trans hgives.turns_eq,
        hgives'.received_eq.trans hgives.received_eq, hgives'.length_eq.trans hgives.length_eq⟩
      rw [hgives'.happened_eq, hgives.happened_eq, List.append_assoc]
      congr 1
      split_ifs
      · cases hcall : call.incident? with
        | none => rw [List.filterMap_cons_none hcall]; rfl
        | some incident => rw [List.filterMap_cons_some hcall]; rfl
      · rfl

/-- An approval is sent for what was typed for its connection. -/
def Turned.Approves (past : List Turned) (turned : Turned) : Prop :=
  ∀ id, .answerSas id true ∈ turned.out.2 →
    (∃ key, turned.input.2 = .terminal (.press key) ∧ key.code = .enter) ∧
      ∃ pending rest, turned.pre.sas = pending :: rest ∧ pending.id = id ∧ pending.typed = typedFor id past ∧
        isApproval pending.typed = true ∧ pending.Asked (events (past.map Record.input))

/-- The handles of an era were told what the turns of the client told them, no more
was approved than was typed, and the client handled nothing but what it heard. -/
structure Era.Sound (era : Era) : Prop where
  heard : ∀ event ∈ events (era.turns.map Record.input), event ∈ era.facade.received
  messages : ∀ n, messagesTo n era.happened = messagesTo n (era.turns.flatMap Turned.taken)
  orders : ∀ n, ordersTo n era.happened = ordersTo n (era.turns.flatMap Turned.taken)
  approves : Each Turned.Approves era.turns

theorem Era.new_sound (identity : IdentityKeypair) : (Era.new identity).Sound :=
  ⟨by simp [Era.new, events], fun _ => rfl, fun _ => rfl, each_nil⟩

omit [Ciborium] [Primitives] in
theorem messagesTo_append (n : Nat) (past more : List Incident) :
    messagesTo n (past ++ more) = messagesTo n past ++ messagesTo n more := List.filterMap_append ..

omit [Ciborium] [Primitives] in
theorem ordersTo_append (n : Nat) (past more : List Incident) :
    ordersTo n (past ++ more) = ordersTo n past ++ ordersTo n more := List.filterMap_append ..

theorem Era.Sound.passes (h : era.Sound) {incident : Incident} (hhappened : era'.happened = era.happened ++ [incident])
    (hturns : era'.turns = era.turns) (hreceived : era.facade.received <+: era'.facade.received)
    (hmessage : ∀ n, incident.message? n = none) (horder : ∀ n, incident.order? n = none) : era'.Sound where
  heard := by
    rw [hturns]
    exact fun event hevent => hreceived.subset (h.heard event hevent)
  messages := by
    intro n
    rw [hhappened, hturns, messagesTo_snoc, hmessage, h.messages, Option.toList_none, List.append_nil]
  orders := by
    intro n
    rw [hhappened, hturns, ordersTo_snoc, horder, h.orders, Option.toList_none, List.append_nil]
  approves := by
    rw [hturns]
    exact h.approves

theorem Era.Sound.spontaneous (h : era.Sound) {incident : Incident} (hoccurs : era.occurs incident = some era')
    (hself : incident.spontaneous = true ∨ incident = .takes) : era'.Sound := by
  obtain ⟨hdoes, -, hhappened, hturns⟩ := Era.occurs_eq_some hoccurs
  have hreceived : era.facade.received <+: era'.facade.received := by
    generalize era'.facade = facade at hdoes ⊢
    cases hdoes with
    | takes => exact List.prefix_append ..
    | _ => exact List.prefix_rfl
  apply h.passes hhappened hturns hreceived
  · intro n
    cases incident <;> first | rfl | simp [Incident.spontaneous] at hself
  · intro n
    cases incident <;> first | rfl | simp [Incident.spontaneous] at hself

theorem Era.Sound.deafen (h : era.Sound) : era.deafen.Sound :=
  h.passes rfl rfl List.prefix_rfl (fun _ => rfl) fun _ => rfl

theorem Era.serves_eq_some (h : era.serves turned = some era') :
    ∃ middle, era.Gives turned.taken middle ∧ era' = { middle with turns := era.turns ++ [turned] } := by
  obtain ⟨middle, hfold, h⟩ := Option.bind_eq_some_iff.1 h
  obtain rfl := Option.some.inj h
  have hgives := Era.performs_give hfold
  exact ⟨middle, hgives, by rw [← hgives.turns_eq]⟩

theorem Era.Sound.serves (h : era.Sound) (hserves : era.serves turned = some era')
    (happroves : turned.Approves era.turns)
    (hheard : ∀ event, turned.input.2.event? = some event → event ∈ era.facade.received) :
    era'.Sound ∧ era'.turns = era.turns ++ [turned] ∧ era'.facade.received = era.facade.received := by
  obtain ⟨middle, hgives, rfl⟩ := Era.serves_eq_some hserves
  refine ⟨⟨?_, ?_, ?_, h.approves.snoc happroves⟩, rfl, hgives.received_eq⟩
  · intro event hevent
    change event ∈ middle.facade.received
    rw [List.map_append, List.map_singleton, events_append] at hevent
    rw [hgives.received_eq]
    rcases List.mem_append.1 hevent with hevent | hevent
    · exact h.heard event hevent
    · exact hheard event (Option.mem_toList.1 hevent)
  · intro n
    dsimp only
    rw [hgives.happened_eq, messagesTo_append, h.messages, List.flatMap_append, List.flatMap_singleton,
      messagesTo_append]
  · intro n
    dsimp only
    rw [hgives.happened_eq, ordersTo_append, h.orders, List.flatMap_append, List.flatMap_singleton,
      ordersTo_append]

/-- What the receiver of a facade hears is in order. -/
theorem Era.orderly (era : Era) (hle : era.facade.conns.length ≤ 2 ^ 64) :
    Orderly era.facade.received ∧ ∀ id, asked id era.facade.received ≤ 1 := by
  have hflows := Facade.runs_flows era.identity era.run hle
  have hsound := Facade.runs_sound era.identity era.run
  exact ⟨orderly_of_parts (hflows.parts hsound), fun id => (hflows.parts hsound id).asked_le⟩

end Eras

section Turns

omit [Ciborium] [Primitives]

open Sessions

variable {app : App} {past : List Turned} {received : List NetEvent}

theorem Sessions.Tracks.empty {s : Sessions} (h : s.Tracks []) : (∀ label, s.peers label = none) ∧ s.queue = [] := by
  have hpeers (label : Text) : s.peers label = none := by
    apply Option.eq_none_iff_forall_ne_some.2
    intro session hsession
    obtain ⟨event, hevent, -⟩ := (h.known label session hsession).opened
    cases hevent
  refine ⟨hpeers, List.eq_nil_iff_forall_not_mem.2 ?_⟩
  intro q hq
  obtain ⟨session, hsession, -⟩ := h.consistent.queued q hq
  cases (hpeers q.label).symm.trans hsession

/-- A client without sessions waits for no answer and has shown nothing yet. -/
theorem App.begins (h : app.sessions.Tracks []) : app.sessions.Queued [] ∧ app.Rooms [] := by
  obtain ⟨hpeers, hqueue⟩ := h.empty
  refine ⟨⟨?_, ?_, fun _ _ => rfl⟩, App.rooms_empty ?_ (List.map_eq_nil_iff.1 hqueue)⟩
  · intro id
    rw [waiting, hqueue]
    exact le_rfl
  · intro q hq
    rw [hqueue] at hq
    cases hq
  · intro label
    exact Option.map_eq_none_iff.1 (hpeers label)

theorem Turned.approves_of (ht : app.sessions.Tracks received) (hq : app.sessions.Queued past) (hr : app.Rooms past)
    (turn : Replies × Input) : Turned.Approves past (record App.step app turn) := by
  intro id hmem
  have hturn : Turn turn.2 app.sessions (answers (app.step turn).2.2) (app.step turn).1.sessions :=
    App.handle_turn ht.consistent turn.1 turn.2
  rcases hturn.answered ht.consistent (mem_answers hmem) with ⟨key, q, qs, hkey, hqueue, hid, -, htyped⟩ | ⟨h, -⟩
  · obtain ⟨henter, hyes⟩ := htyped rfl
    refine ⟨⟨key, hkey, henter⟩, ?_⟩
    obtain ⟨pending, rest, hsas, rfl, -⟩ := List.map_eq_cons_iff.1 hqueue
    have hpending := hq.typed pending.question (by rw [hqueue]; exact List.mem_cons_self)
    exact ⟨pending, rest, hsas, hid, by rw [← hid]; exact hpending, hyes,
      hr.asked pending (by rw [hsas]; exact List.mem_cons_self)⟩
  · cases h

theorem App.renews {replies : Replies} {input : Input}
    (hs : (app.step (replies, input)).1.sessions.Consistent) (hcalls : .newNet ∈ (app.step (replies, input)).2.2) :
    (app.step (replies, input)).1.sessions.Tracks [] := by
  have hdoes : app.Does replies input (app.step (replies, input)).1 (app.step (replies, input)).2.2 :=
    App.handle_does app replies input
  have hempty : ∀ label, (app.step (replies, input)).1.peers.lookup label = none := by
    generalize (app.step (replies, input)).1 = app' at hdoes ⊢
    generalize (app.step (replies, input)).2.2 = calls at hdoes hcalls
    cases hdoes with
    | renews _ empty still =>
        intro label
        apply Option.eq_none_iff_forall_ne_some.2
        intro peer' hpeer'
        obtain ⟨peer, hpeer, -⟩ := still.peers label peer' hpeer'
        rw [AList.lookup, empty] at hpeer
        cases hpeer
    | stays _ _ free => exact absurd rfl (free _ hcalls).2
    | asks _ _ _ handle =>
        obtain rfl := List.mem_singleton.1 hcalls
        cases handle
    | speaks => cases List.mem_singleton.1 hcalls
    | hears | opens | enters | questions | leaves => cases hcalls
  refine ⟨hs, ?_, by simp⟩
  intro label session hsession
  obtain ⟨peer, hpeer, -⟩ := App.lookup_of_sessions hsession
  cases (hempty label).symm.trans hpeer

end Turns

namespace Client

structure Sound (client : Client) : Prop where
  eras : ∀ era ∈ client.eras, era.Sound
  events_eq : events (client.past.map Record.input) = client.received
  tracks : client.app.sessions.Tracks client.received
  queued : client.app.sessions.Queued client.past
  rooms : client.app.Rooms client.past

def Grows (client client' : Client) : Prop :=
  ∀ era ∈ client.eras, ∃ era' ∈ client'.eras, era.facade.conns.length ≤ era'.facade.conns.length

variable {self self' : Client} {profile : Option IdentityKeypair} {replies : Replies} {input : Input}

theorem new_sound (keys : KeyMap) : (Client.new keys).Sound := by
  obtain ⟨hqueued, hrooms⟩ := App.begins (new_tracks keys)
  exact ⟨by simp [new], rfl, new_tracks keys, hqueued, hrooms⟩

theorem turn_eq_some (h : self.turn profile replies input = some self') :
    let turned := record App.step self.app (replies, input)
    self'.app = turned.post ∧ ∃ eras,
      (self.eras = [] ∧ eras = [] ∨
        ∃ era era' rest, self.eras = era :: rest ∧ era.serves turned = some era' ∧ eras = era' :: rest) ∧
      (self'.eras = eras ∨
        .newNet ∈ turned.out.2 ∧ ∃ identity, self'.eras = .new identity :: eras.modifyHead Era.deafen) := by
  intro turned
  obtain ⟨eras, heras, h⟩ := Option.bind_eq_some_iff.1 h
  have hserved : self.eras = [] ∧ eras = [] ∨
      ∃ era era' rest, self.eras = era :: rest ∧ era.serves turned = some era' ∧ eras = era' :: rest := by
    cases hself : self.eras with
    | nil =>
        rw [hself] at heras
        obtain ⟨-, heras⟩ := Option.ite_none_right_eq_some.1 heras
        exact .inl ⟨rfl, (Option.some.inj heras).symm⟩
    | cons era rest =>
        rw [hself] at heras
        obtain ⟨era', hserves, rfl⟩ := Option.map_eq_some_iff.1 heras
        exact .inr ⟨era, era', rest, rfl, hserves, rfl⟩
  split at h
  · next hnew =>
    obtain ⟨identity, -, h⟩ := Option.bind_eq_some_iff.1 h
    obtain ⟨-, h⟩ := Option.ite_none_right_eq_some.1 h
    obtain rfl := Option.some.inj h
    exact ⟨rfl, eras, hserved, .inr ⟨hnew, identity, rfl⟩⟩
  · obtain rfl := Option.some.inj h
    exact ⟨rfl, eras, hserved, .inl rfl⟩

theorem turn_grows (h : self.turn profile replies input = some self') : self.Grows self' := by
  obtain ⟨-, eras, hserved, hnext⟩ := turn_eq_some h
  have hgrows : self.Grows { self' with eras } := by
    intro other hother
    rcases hserved with ⟨hnone, rfl⟩ | ⟨era, era', rest, hsome, hserves, rfl⟩
    · rw [hnone] at hother
      cases hother
    · obtain ⟨middle, hgives, rfl⟩ := Era.serves_eq_some hserves
      rw [hsome] at hother
      rcases List.mem_cons.1 hother with rfl | hother
      · exact ⟨_, List.mem_cons_self, hgives.length_eq.ge⟩
      · exact ⟨other, List.mem_cons_of_mem _ hother, le_rfl⟩
  intro era hera
  obtain ⟨era', hera', hle⟩ := hgrows era hera
  rcases hnext with heras' | ⟨-, identity, heras'⟩
  · exact ⟨era', by rwa [heras'], hle⟩
  · rw [heras']
    cases eras with
    | nil => cases hera'
    | cons first rest =>
        rcases List.mem_cons.1 hera' with rfl | hera'
        · exact ⟨_, List.mem_cons_of_mem _ List.mem_cons_self, hle⟩
        · exact ⟨era', List.mem_cons_of_mem _ (List.mem_cons_of_mem _ hera'), hle⟩

/-- The current facade is still the current one after a turn, or the client has
begun anew. -/
theorem turn_sound {told : List NetEvent} (h : self.turn profile replies input = some self')
    (heras : ∀ era ∈ self.eras, era.Sound)
    (hevents : events (self.past.map Record.input) = told)
    (hreceived : self.received = told ++ input.event?.toList) (ht : self.app.sessions.Tracks told)
    (hq : self.app.sessions.Queued self.past) (hr : self.app.Rooms self.past)
    (hf : ∀ event, input.event? = some event → event.Follows told)
    (honce : ∀ id, asked id self.received ≤ 1) : self'.Sound := by
  obtain ⟨happ, eras, hserved, hnext⟩ := turn_eq_some h
  have hturn : Sessions.Turn input self.app.sessions _ (self.app.step (replies, input)).1.sessions :=
    App.handle_turn ht.consistent replies input
  have htracks : self'.app.sessions.Tracks (told ++ input.event?.toList) := by
    rw [happ]
    exact hturn.tracks ht hf
  have happroves := Turned.approves_of ht hq hr (replies, input)
  have hsnoc : events ((self.past ++ [record App.step self.app (replies, input)]).map Record.input) = self.received := by
    rw [List.map_append, List.map_singleton, record_input, events_append, hevents, hreceived]
  -- what the client knows once the turn is over, whether or not it has a new facade
  have hserves : (∀ era ∈ eras, era.Sound) ∧ (self'.eras = eras → self'.Sound) := by
    rcases hserved with ⟨hnone, rfl⟩ | ⟨era, era', rest, hsome, hserves, rfl⟩
    · have hnothing : told ++ input.event?.toList = [] := by
        rw [← hreceived, Client.received, hnone]
        rfl
      rw [hnothing] at htracks
      refine ⟨by simp, ?_⟩
      intro heras'
      obtain ⟨hqueued, hrooms⟩ := App.begins htracks
      have hpast : self'.past = [] := by rw [past, heras']; rfl
      have htold : self'.received = [] := by rw [Client.received, heras']; rfl
      exact ⟨by simp [heras'], by rw [hpast, htold]; rfl, by rwa [htold], by rwa [hpast], by rwa [hpast]⟩
    · have hpast : self.past = era.turns := by rw [past, hsome]; rfl
      have htold : self.received = era.facade.received := by rw [Client.received, hsome]; rfl
      rw [hpast] at happroves
      have hheard (event : NetEvent) (hevent : input.event? = some event) : event ∈ era.facade.received := by
        rw [← htold, hreceived, hevent]
        exact List.mem_append_right _ (List.mem_singleton_self event)
      obtain ⟨hsound, hturns, hreceived'⟩ :=
        (heras era (by rw [hsome]; exact List.mem_cons_self)).serves hserves happroves hheard
      have hall : ∀ other ∈ era' :: rest, other.Sound := by
        intro other hother
        rcases List.mem_cons.1 hother with rfl | hother
        · exact hsound
        · exact heras other (by rw [hsome]; exact List.mem_cons_of_mem _ hother)
      refine ⟨hall, ?_⟩
      intro heras'
      have hpast' : self'.past = self.past ++ [record App.step self.app (replies, input)] := by
        rw [hpast, past, heras']
        exact hturns
      have htold' : self'.received = self.received := by
        rw [htold, Client.received, heras']
        exact hreceived'
      refine ⟨by rwa [heras'], ?_, ?_, ?_, ?_⟩
      · rw [hpast', htold', hsnoc]
      · rw [htold', hreceived]
        exact htracks
      · rw [hpast', happ]
        apply hq.step ht.consistent
        intro id
        rw [hsnoc]
        exact honce id
      · rw [hpast', happ]
        exact hr.step (by rwa [hevents]) (by rwa [hevents])
  obtain ⟨hsound, hkept⟩ := hserves
  rcases hnext with heras' | ⟨hnew, identity, heras'⟩
  · exact hkept heras'
  · have hbegins : self'.app.sessions.Tracks [] := by
      have hs := htracks.consistent
      rw [happ] at hs ⊢
      exact App.renews hs hnew
    obtain ⟨hqueued, hrooms⟩ := App.begins hbegins
    have hpast : self'.past = [] := by rw [past, heras']; rfl
    have htold : self'.received = [] := by rw [Client.received, heras']; rfl
    refine ⟨?_, by rw [hpast, htold]; rfl, by rwa [htold], by rwa [hpast], by rwa [hpast]⟩
    intro era hera
    rw [heras'] at hera
    rcases List.mem_cons.1 hera with rfl | hera
    · exact Era.new_sound identity
    · cases eras with
      | nil => cases hera
      | cons first rest =>
          rcases List.mem_cons.1 hera with rfl | hera
          · exact (hsound first List.mem_cons_self).deafen
          · exact hsound era (List.mem_cons_of_mem _ hera)

/-- No facade runs out of ids. -/
def Numbered (client : Client) : Prop := ∀ era ∈ client.eras, era.facade.conns.length ≤ 2 ^ 64

theorem Grows.numbered (h : self.Grows self') (hn : self'.Numbered) : self.Numbered := by
  intro era hera
  obtain ⟨era', hera', hle⟩ := h era hera
  exact hle.trans (hn era' hera')

theorem Grows.trans {self'' : Client} (h : self.Grows self') (h' : self'.Grows self'') : self.Grows self'' := by
  intro era hera
  obtain ⟨era', hera', hle⟩ := h era hera
  obtain ⟨era'', hera'', hle'⟩ := h' era' hera'
  exact ⟨era'', hera'', hle.trans hle'⟩

theorem occurs_grows {n : Nat} {era era' : Era} (hera : self.eras[n]? = some era) {incident : Incident}
    (hoccurs : era.occurs incident = some era') : self.Grows { self with eras := self.eras.set n era' } := by
  obtain ⟨hdoes, -⟩ := Era.occurs_eq_some hoccurs
  obtain ⟨hlt, rfl⟩ := List.getElem?_eq_some_iff.1 hera
  intro other hother
  obtain ⟨m, hm, rfl⟩ := List.mem_iff_getElem.1 hother
  by_cases hne : n = m
  · subst hne
    exact ⟨era', List.mem_set hlt _, hdoes.length_le⟩
  · refine ⟨self.eras[m], List.mem_iff_getElem?.2 ⟨m, ?_⟩, le_rfl⟩
    rw [List.getElem?_set_ne hne, List.getElem?_eq_getElem hm]

theorem step_grows {happening : Happening} (h : self.step happening = some self') : self.Grows self' := by
  cases happening with
  | handles profile replies input =>
      obtain ⟨-, h⟩ := Option.ite_none_right_eq_some.1 h
      exact turn_grows h
  | hears replies =>
      rw [step] at h
      cases heras : self.eras with
      | nil => simp [heras] at h
      | cons era rest =>
          simp only [heras] at h
          obtain ⟨⟨event, events⟩, -, h⟩ := Option.bind_eq_some_iff.1 h
          obtain ⟨era', hoccurs, h⟩ := Option.bind_eq_some_iff.1 h
          have hgrows : self.Grows { self with eras := self.eras.set 0 era' } :=
            occurs_grows (by rw [heras]; rfl) hoccurs
          rw [heras] at hgrows
          exact hgrows.trans (turn_grows h)
  | occurs n incident =>
      obtain ⟨-, h⟩ := Option.ite_none_right_eq_some.1 h
      obtain ⟨era, hera, h⟩ := Option.bind_eq_some_iff.1 h
      obtain ⟨era', hoccurs, h⟩ := Option.bind_eq_some_iff.1 h
      obtain rfl := Option.some.inj h
      exact occurs_grows hera hoccurs

theorem Sound.occurs (hs : self.Sound) {n : Nat} {era era' : Era} (hera : self.eras[n]? = some era)
    {incident : Incident} (hself : incident.spontaneous = true) (hoccurs : era.occurs incident = some era') :
    Sound { self with eras := self.eras.set n era' } := by
  obtain ⟨hdoes, -, -, hturns⟩ := Era.occurs_eq_some hoccurs
  have hreceived : era'.facade.received = era.facade.received := by
    generalize era'.facade = facade at hdoes ⊢
    cases hdoes <;> first | rfl | cases hself
  have hsame : past { self with eras := self.eras.set n era' } = self.past ∧
      received { self with eras := self.eras.set n era' } = self.received := by
    cases heras : self.eras with
    | nil => simp [heras] at hera
    | cons first rest =>
        cases n with
        | zero =>
            obtain rfl : first = era := by simpa [heras] using hera
            constructor
            · rw [past, past, heras]
              exact hturns
            · rw [Client.received, Client.received, heras]
              exact hreceived
        | succ n =>
            rw [past, past, Client.received, Client.received, heras]
            exact ⟨rfl, rfl⟩
  refine ⟨?_, ?_, ?_, ?_, ?_⟩
  · intro other hother
    rcases List.mem_or_eq_of_mem_set hother with hother | rfl
    · exact hs.eras other hother
    · exact (hs.eras era (List.mem_of_getElem? hera)).spontaneous hoccurs (.inl hself)
  · rw [hsame.1, hsame.2]
    exact hs.events_eq
  · rw [hsame.2]
    exact hs.tracks
  · rw [hsame.1]
    exact hs.queued
  · rw [hsame.1]
    exact hs.rooms

theorem Sound.step (hs : self.Sound) {happening : Happening} (h : self.step happening = some self')
    (hn : self'.Numbered) : self'.Sound := by
  cases happening with
  | handles profile replies input =>
      obtain ⟨hnone, h⟩ := Option.ite_none_right_eq_some.1 h
      have hevent : input.event? = none := Option.isNone_iff_eq_none.1 hnone
      refine turn_sound h hs.eras hs.events_eq ?_ hs.tracks hs.queued hs.rooms ?_ ?_
      · rw [hevent]
        exact (List.append_nil _).symm
      · intro event hsome
        cases hevent.symm.trans hsome
      · intro id
        cases heras : self.eras with
        | nil =>
            rw [received, heras]
            exact Nat.zero_le 1
        | cons era rest =>
            rw [received, heras]
            exact (Era.orderly era ((turn_grows h).numbered hn era (by rw [heras]; exact List.mem_cons_self))).2 id
  | hears replies =>
      rw [Client.step] at h
      cases heras : self.eras with
      | nil => simp [heras] at h
      | cons era rest =>
          simp only [heras] at h
          obtain ⟨⟨event, events⟩, hpop, h⟩ := Option.bind_eq_some_iff.1 h
          obtain ⟨era', hoccurs, h⟩ := Option.bind_eq_some_iff.1 h
          obtain ⟨hdoes, -, -, hturns⟩ := Era.occurs_eq_some hoccurs
          have hpast : self.past = era.turns := by rw [past, heras]; rfl
          have htold : self.received = era.facade.received := by rw [received, heras]; rfl
          have hreceived : era'.facade.received = era.facade.received ++ [event] := by
            generalize era'.facade = facade at hdoes ⊢
            cases hdoes with
            | takes hpop' =>
                obtain ⟨rfl, -⟩ := Prod.mk.inj (Option.some.inj (hpop.symm.trans hpop'))
                rfl
          have hle : era'.facade.conns.length ≤ 2 ^ 64 := (turn_grows h).numbered hn era' List.mem_cons_self
          obtain ⟨horderly, honce⟩ := Era.orderly era' hle
          rw [hreceived] at horderly
          have hevents := hs.events_eq
          have htracks := hs.tracks
          have hqueued := hs.queued
          have hrooms := hs.rooms
          rw [hpast, ← hturns] at hevents hqueued hrooms
          rw [htold] at hevents htracks
          refine turn_sound h ?_ hevents hreceived htracks hqueued hrooms ?_ honce
          · intro other hother
            rcases List.mem_cons.1 hother with rfl | hother
            · exact (hs.eras era (by rw [heras]; exact List.mem_cons_self)).spontaneous hoccurs (.inr rfl)
            · exact hs.eras other (by rw [heras]; exact List.mem_cons_of_mem _ hother)
          · intro event' hevent
            obtain rfl := Option.some.inj hevent
            exact horderly.last
  | occurs n incident =>
      obtain ⟨hself, h⟩ := Option.ite_none_right_eq_some.1 h
      obtain ⟨era, hera, h⟩ := Option.bind_eq_some_iff.1 h
      obtain ⟨era', hoccurs, h⟩ := Option.bind_eq_some_iff.1 h
      obtain rfl := Option.some.inj h
      exact hs.occurs hera hself hoccurs

theorem runs_sound (keys : KeyMap) {happenings : List Happening}
    (h : reads Client.step (.new keys) happenings = some self) (hn : self.Numbered) : self.Sound := by
  have hrun := reads_induction (fun _ self => self.Numbered → self.Sound) (fun _ => new_sound keys)
    (fun _ _ _ _ hs hstep hn => (hs ((step_grows hstep).numbered hn)).step hstep hn) h
  exact hrun hn

end Client

namespace Sample

open Ruxmsg.Sample

def keyed (turn : Replies × Input) : Happening := .handles none turn.1 turn.2

def framed (frame : Frame) : Happening := .occurs 0 (.wakes 0 (.read [.ok frame]))

def loading : List Happening :=
  (type "profile use a").map keyed ++
    [.handles (some leftIdentity) { plain with loaded := .ok (some leftIdentity.identity) } (press .enter).2]

def dialing : List Happening :=
  loading ++ [.occurs 0 (.connects "peer".toList (entropy 100) willing), .occurs 0 (.passes 0), .hears plain,
    .occurs 0 (.starts 0)]

def answered : List Frame :=
  handshake.leftInputs.filterMap fun
    | .frameReceived frame => some frame
    | _ => none

def approving : List Happening :=
  dialing ++ (answered.take 1).map framed ++ [.occurs 0 (.passes 0), .hears plain] ++
    (type "yes" ++ [press .enter]).map keyed ++ .occurs 0 (.wakes 0 (.command (some (.sas true)))) ::
      (answered.drop 1).map framed ++ [.occurs 0 (.passes 0), .hears plain]

/-- A message of the peer comes while its chat is closed. -/
def messaged : List Happening := approving ++ [framed said, .occurs 0 (.passes 0), .hears plain]

def speaking : List Happening :=
  messaged ++ (type "chat peer1" ++ press .enter :: type "ok" ++ [press .enter]).map keyed

end Sample

end Ruxmsg.Cli

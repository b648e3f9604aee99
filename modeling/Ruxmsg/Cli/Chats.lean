import Ruxmsg.Cli.Client

namespace Ruxmsg.Cli

open Library Library.Grammar Library.Machine

section Lines

def NetEvent.message? : NetEvent → Option (List UInt8)
  | .conn _ (.message content) => some content
  | _ => none

variable {id : ConnId} {n : Nat} {turned : Turned} {past : List Turned}

theorem heard_eq : turned.heard id = (eventsOf id turned.input.2.event?.toList).filterMap NetEvent.message? := by
  rw [Turned.heard]
  generalize turned.input.2 = input
  cases input with
  | terminal | tick => rfl
  | net event =>
      rw [eventsOf, show (Input.net event).event?.toList = [event] from rfl]
      cases event with
      | opened handle remote outbound => by_cases h : handle.id = id <;> simp [Input.message?, NetEvent.message?]
      | dialFailed | listenerStopped => rfl
      | conn other event =>
          by_cases h : other = id
          · cases event <;> simp [Input.message?, NetEvent.message?, NetEvent.connection, h]
          · cases event <;> simp [Input.message?, NetEvent.connection, h]

theorem flatMap_heard : past.flatMap (Turned.heard id) =
    (eventsOf id (events (past.map Record.input))).filterMap NetEvent.message? := by
  induction past with
  | nil => rfl
  | cons turned past ih =>
      have hevents : events ((turned :: past).map Record.input) =
          turned.input.2.event?.toList ++ events (past.map Record.input) := by
        rw [List.map_cons, events, List.filterMap_cons]
        cases turned.input.2.event? <;> rfl
      rw [List.flatMap_cons, ih, heard_eq, hevents, eventsOf_append, List.filterMap_append]

theorem sent_eq (hn : n < 2 ^ 64) : turned.sent (connId n) = messagesTo n turned.taken := by
  rw [Turned.sent, Turned.taken]
  split_ifs
  · rw [messagesTo, List.filterMap_filterMap]
    apply List.filterMap_congr
    intro call _
    cases call with
    | sendMessage id content =>
        change (if id = connId n then some content else none) = if id.place = n then some content else none
        by_cases h : id.place = n
        · rw [if_pos h, if_pos]
          rw [← h, connId_place]
        · rw [if_neg h, if_neg]
          rintro rfl
          exact h (place_connId hn)
    | _ => rfl
  · rfl

theorem flatMap_sent (hn : n < 2 ^ 64) :
    past.flatMap (Turned.sent (connId n)) = messagesTo n (past.flatMap Turned.taken) := by
  induction past with
  | nil => rfl
  | cons turned past ih => rw [List.flatMap_cons, ih, sent_eq hn, List.flatMap_cons, messagesTo_append]

theorem conversation_filter (author : Author) : (conversation id past).filter (fun line => line.1 = author) =
    match author with
    | .remote => (past.flatMap (Turned.heard id)).map fun content => (Author.remote, ingest content)
    | .local => (past.flatMap (Turned.sent id)).map fun content => (Author.local, ingest content)
    | .system => [] := by
  have hmap (other : Author) (contents : List (List UInt8)) :
      (contents.map fun content => (other, ingest content)).filter (fun line => line.1 = author) =
        if other = author then contents.map fun content => (other, ingest content) else [] := by
    induction contents with
    | nil => simp
    | cons content contents ih =>
        rw [List.map_cons, List.filter_cons, ih]
        split_ifs <;> simp_all
  induction past with
  | nil => cases author <;> rfl
  | cons turned past ih =>
      rw [conversation, List.flatMap_cons, List.filter_append, ← conversation, ih, Turned.lines, List.filter_append,
        hmap, hmap]
      cases author <;> simp

end Lines

section Peers

variable [Ciborium] [Primitives] {self : Client} {keys : KeyMap} {happenings : List Happening}

theorem Client.Sound.connection (hs : self.Sound) (hn : self.Numbered) {label : Text} {peer : Peer}
    (hpeer : self.app.peers.lookup label = some peer) :
    ∃ era rest n conn, self.eras = era :: rest ∧ era.facade.conns[n]? = some conn ∧ peer.id = connId n ∧
      peer.handle.id = connId n ∧ n < 2 ^ 64 := by
  have hsession := App.sessions_peers hpeer
  obtain ⟨event, hevent, hopens⟩ := (hs.tracks.known label _ hsession).opened
  have hhandle : peer.handle.id = peer.id := (hs.tracks.consistent.fits label _ hsession).handle_id
  cases heras : self.eras with
  | nil =>
      rw [Client.received, heras] at hevent
      cases hevent
  | cons era rest =>
      have hera : era ∈ self.eras := by
        rw [heras]
        exact List.mem_cons_self
      rw [Client.received, heras] at hevent
      have hknown : ∃ n < era.facade.conns.length, peer.id = connId n := by
        by_contra hnone
        push Not at hnone
        have hempty := ((Facade.runs_flows era.identity era.run (hn era hera)).strangers peer.id hnone).1
        have hmem : event ∈ eventsOf peer.id era.facade.received :=
          mem_eventsOf hevent (NetEvent.connection_of_opens hopens)
        rw [hempty] at hmem
        cases hmem
      obtain ⟨n, hlt, hid⟩ := hknown
      exact ⟨era, rest, n, _, rfl, List.getElem?_eq_getElem hlt, hid, hhandle.trans hid, hlt.trans_le (hn era hera)⟩

/-- The chat of a session shows what was said on its connection, in the order in
which the client took part in it and with nothing but its own notices between:
the messages its engine delivered, as far as they are heard, and the messages its
engine was given, with those that still wait for it. -/
theorem chats_show_what_was_said (h : reads Client.step (.new keys) happenings = some self) (hn : self.Numbered)
    (label : Text) (peer : Peer) (hpeer : self.app.peers.lookup label = some peer) :
    ∃ era rest n conn inputs, ∃ heard sent : List (List UInt8),
      self.eras = era :: rest ∧ era.facade.conns[n]? = some conn ∧ peer.id = connId n ∧
      conn.task.engine = final Engine.handle (conn.start era.identity) inputs ∧
      heard <+: conn.task.events.filterMap ConnEvent.message? ∧
      conn.task.events.Sublist (reports ((conn.start era.identity).outputs inputs)) ∧
      (conn.task.orphaned = false → conn.task.events = reports ((conn.start era.identity).outputs inputs)) ∧
      inputs.filter Ruxmsg.Input.isSend ++ conn.messages.map .localSend = sent.map .localSend ∧
      peer.scrollback.Talked (conversation peer.id era.turns) ∧
      (conversation peer.id era.turns).filter (fun line => line.1 = .remote) =
        heard.map (fun content => (.remote, ingest content)) ∧
      (conversation peer.id era.turns).filter (fun line => line.1 = .local) =
        sent.map (fun content => (.local, ingest content)) := by
  have hs := Client.runs_sound keys h hn
  obtain ⟨era, rest, n, conn, heras, hconn, hid, -, hlt⟩ := hs.connection hn hpeer
  have hera : era ∈ self.eras := by
    rw [heras]
    exact List.mem_cons_self
  have hpast : self.past = era.turns := by
    rw [Client.past, heras]
    rfl
  have hreceived : events (era.turns.map Record.input) = era.facade.received := by
    have hevents := hs.events_eq
    rwa [hpast, Client.received, heras] at hevents
  obtain ⟨inputs, hfollows, hsends, -⟩ := ((Facade.runs_sound era.identity era.run).conns n conn hconn).run
  rw [Facade.runs_identity era.identity era.run] at hfollows
  obtain ⟨lost, -, hflows⟩ := (Facade.runs_flows era.identity era.run (hn era hera)).flows n conn hconn
  refine ⟨era, rest, n, conn, inputs, (eventsOf (connId n) era.facade.received).filterMap NetEvent.message?,
    messagesTo n era.happened, heras, hconn, hid, hfollows.engine_eq, ?_, hfollows.events, hfollows.heard, hsends,
    ?_, ?_, ?_⟩
  · have hsaid : (conn.said n).filterMap NetEvent.message? = conn.task.events.filterMap ConnEvent.message? := by
      rw [Spawned.said, List.filterMap_cons_none rfl, List.filterMap_map]
      apply List.filterMap_congr
      intro event _
      cases event <;> rfl
    rw [← hsaid, ← hflows, List.append_assoc, List.filterMap_append]
    exact List.prefix_append ..
  · rw [← hpast]
    exact hs.rooms.talks label peer hpeer
  · rw [conversation_filter, flatMap_heard, hreceived, hid]
  · rw [conversation_filter, hid, flatMap_sent hlt, (hs.eras era hera).messages]

/-- The client counts the messages that came for a session since its chat was last
open, and none while it is. -/
theorem unread_counts_unseen (h : reads Client.step (.new keys) happenings = some self) (hn : self.Numbered)
    (label : Text) (peer : Peer) (hpeer : self.app.peers.lookup label = some peer) :
    peer.unread = unseen label self.past ∧ (self.app.views label = true → peer.unread = 0) := by
  have hs := Client.runs_sound keys h hn
  have hunread := hs.rooms.unread label peer hpeer
  refine ⟨hunread, ?_⟩
  intro hview
  rw [hunread, hs.rooms.viewed label hview]

/-- The table of sessions stays true across profiles and whatever the facades do:
it knows the connections of the current facade only, by their own ids and what
was heard of them, and every one that opened and has not closed, as long as there
are labels; the handle of a session is that of its connection; nothing of a
closed session waits for an answer or is a target. -/
theorem table_follows_facade (h : reads Client.step (.new keys) happenings = some self) (hn : self.Numbered) :
    events (self.past.map Record.input) = self.received ∧ Orderly self.received ∧
      (∀ id label, self.app.byId.lookup id = some label ↔
        ∃ peer, self.app.peers.lookup label = some peer ∧ peer.id = id) ∧
      (∀ label peer, self.app.peers.lookup label = some peer →
        (∃ era rest n conn, self.eras = era :: rest ∧ era.facade.conns[n]? = some conn ∧ peer.id = connId n ∧
          peer.handle.id = connId n) ∧
        (peer.status = .closed ↔ ∃ cause, .conn peer.id (.closed cause) ∈ self.received) ∧
        (peer.status = .closed → self.app.views label = true)) ∧
      (∀ handle remote outbound, .opened handle remote outbound ∈ self.received →
        (∀ cause, .conn handle.id (.closed cause) ∉ self.received) → self.app.nextLabel < u64Max →
        ∃ label peer, self.app.peers.lookup label = some peer ∧ peer.id = handle.id) ∧
      (∀ pending ∈ self.app.sas, ∃ peer,
        self.app.peers.lookup pending.label = some peer ∧ peer.id = pending.id ∧ peer.status ≠ .closed) ∧
      self.app.sas.length ≤ maxUnauthenticatedHandshakes ∧
      ∀ label, self.app.defaultTarget = some label →
        ∃ peer, self.app.peers.lookup label = some peer ∧ peer.status ≠ .closed := by
  have hs := Client.runs_sound keys h hn
  obtain ⟨hindexed, hfits, hqueued, htargeted, hqueue⟩ := hs.tracks.consistent
  have horderly : Orderly self.received := by
    cases heras : self.eras with
    | nil =>
        rw [Client.received, heras]
        exact each_nil
    | cons era rest =>
        rw [Client.received, heras]
        exact (era.orderly (hn era (by rw [heras]; exact List.mem_cons_self))).1
  refine ⟨hs.events_eq, horderly, ?_, ?_, ?_, ?_, ?_, ?_⟩
  · intro id label
    rw [show self.app.byId.lookup id = self.app.sessions.byId id from rfl, hindexed id label]
    constructor
    · rintro ⟨session, hlabel, hid⟩
      obtain ⟨peer, hpeer, rfl⟩ := App.lookup_of_sessions hlabel
      exact ⟨peer, hpeer, hid⟩
    · rintro ⟨peer, hpeer, hid⟩
      exact ⟨peer.session, App.sessions_peers hpeer, hid⟩
  · intro label peer hpeer
    have hsession := App.sessions_peers hpeer
    obtain ⟨era, rest, n, conn, heras, hconn, hid, hhandle, -⟩ := hs.connection hn hpeer
    refine ⟨⟨era, rest, n, conn, heras, hconn, hid, hhandle⟩, ?_, ?_⟩
    · rw [show peer.status = .closed ↔ _ from (hs.tracks.known label _ hsession).closed_iff]
      constructor
      · rintro ⟨event, hevent, hcloses⟩
        obtain ⟨cause, rfl⟩ := NetEvent.closes_iff.1 hcloses
        exact ⟨cause, hevent⟩
      · rintro ⟨cause, hevent⟩
        exact ⟨_, hevent, NetEvent.closes_iff.2 ⟨cause, rfl⟩⟩
    · intro hclosed
      exact App.views_iff.2 ((hfits label _ hsession).viewed hclosed)
  · intro handle remote outbound hopened hopen hlabels
    obtain ⟨label, hplace⟩ := hs.tracks.complete hlabels handle.id ⟨_, hopened, decide_eq_true rfl⟩ (by
      intro event hevent hcloses
      obtain ⟨cause, rfl⟩ := NetEvent.closes_iff.1 hcloses
      exact hopen cause hevent)
    obtain ⟨session, hlabel, hid⟩ := hindexed.entry hplace
    obtain ⟨peer, hpeer, rfl⟩ := App.lookup_of_sessions hlabel
    exact ⟨label, peer, hpeer, hid⟩
  · intro pending hpending
    obtain ⟨session, hlabel, hid, halive⟩ := hqueued pending.question (List.mem_map_of_mem hpending)
    obtain ⟨peer, hpeer, rfl⟩ := App.lookup_of_sessions hlabel
    exact ⟨peer, hpeer, hid, halive⟩
  · rwa [App.sessions, List.length_map] at hqueue
  · intro label hlabel
    obtain ⟨id, session, hsession, -, halive⟩ := htargeted label hlabel
    obtain ⟨peer, hpeer, rfl⟩ := App.lookup_of_sessions hsession
    exact ⟨peer, hpeer, halive⟩

end Peers

end Ruxmsg.Cli

namespace Ruxmsg.Cli

open Library.Grammar Ruxmsg.Sample

/-- A session with a line of the peer and one of the user in its chat. -/
theorem Sample.speaking_shows : ∃ (self : Client) (peer : Peer),
    reads Client.step (.new .default) Sample.speaking = some self ∧ self.Numbered ∧
      self.app.peers.lookup "peer1".toList = some peer ∧
      conversation peer.id self.past = [(.remote, "hi".toList), (.local, "ok".toList)] := by
  have hrun : ((reads Client.step (.new .default) Sample.speaking).any fun self =>
      (self.eras.all fun era => era.facade.conns.length ≤ 1) &&
        (self.app.peers.lookup "peer1".toList).any fun peer =>
          conversation peer.id self.past = [(.remote, "hi".toList), (.local, "ok".toList)]) = true := by
    decide +kernel
  obtain ⟨self, hself, hlast⟩ := (Option.any_eq_true _ _).1 hrun
  obtain ⟨hsmall, hpeer⟩ := Bool.and_eq_true_iff.1 hlast
  obtain ⟨peer, hpeer, htalk⟩ := (Option.any_eq_true _ _).1 hpeer
  refine ⟨self, peer, hself, ?_, hpeer, of_decide_eq_true htalk⟩
  intro era hera
  exact (of_decide_eq_true (List.all_eq_true.1 hsmall era hera)).trans Nat.one_le_two_pow

theorem chats_show_what_was_said_speaking : ∃ (self : Client) (peer : Peer) (heard sent : List (List UInt8)),
    reads Client.step (.new .default) Sample.speaking = some self ∧
      self.app.peers.lookup "peer1".toList = some peer ∧
      peer.scrollback.Talked [(.remote, "hi".toList), (.local, "ok".toList)] ∧
      heard.map (fun content => (Author.remote, ingest content)) = [(.remote, "hi".toList)] ∧
      sent.map (fun content => (Author.local, ingest content)) = [(.local, "ok".toList)] := by
  obtain ⟨self, peer, hself, hn, hpeer, htalk⟩ := Sample.speaking_shows
  obtain ⟨era, rest, -, -, -, heard, sent, heras, -, -, -, -, -, -, -, hshown, hremote, hlocal⟩ :=
    chats_show_what_was_said hself hn _ peer hpeer
  rw [Client.past, heras, List.head?_cons, Option.elim_some] at htalk
  rw [htalk] at hshown hremote hlocal
  exact ⟨self, peer, heard, sent, hself, hpeer, hshown, hremote.symm, hlocal.symm⟩

theorem unread_counts_unseen_messaged : ∃ (self : Client) (peer : Peer),
    reads Client.step (.new .default) Sample.messaged = some self ∧
      self.app.peers.lookup "peer1".toList = some peer ∧ unseen "peer1".toList self.past = 1 ∧ peer.unread = 1 := by
  have hrun : ((reads Client.step (.new .default) Sample.messaged).any fun self =>
      (self.eras.all fun era => era.facade.conns.length ≤ 1) &&
        ((self.app.peers.lookup "peer1".toList).isSome && unseen "peer1".toList self.past = 1)) = true := by
    decide +kernel
  obtain ⟨self, hself, hlast⟩ := (Option.any_eq_true _ _).1 hrun
  obtain ⟨hsmall, hlast⟩ := Bool.and_eq_true_iff.1 hlast
  obtain ⟨hpeer, hunseen⟩ := Bool.and_eq_true_iff.1 hlast
  obtain ⟨peer, hpeer⟩ := Option.isSome_iff_exists.1 hpeer
  have hn : self.Numbered := by
    intro era hera
    exact (of_decide_eq_true (List.all_eq_true.1 hsmall era hera)).trans Nat.one_le_two_pow
  have hunread := (unread_counts_unseen hself hn _ peer hpeer).1
  rw [of_decide_eq_true hunseen] at hunread
  exact ⟨self, peer, hself, hpeer, of_decide_eq_true hunseen, hunread⟩

theorem table_follows_facade_speaking : ∃ (self : Client) (peer : Peer),
    reads Client.step (.new .default) Sample.speaking = some self ∧ self.app.peers.lookup "peer1".toList = some peer ∧
      self.app.byId.lookup peer.id = some "peer1".toList ∧ Orderly self.received := by
  obtain ⟨self, peer, hself, hn, hpeer, -⟩ := Sample.speaking_shows
  have htable := table_follows_facade hself hn
  exact ⟨self, peer, hself, hpeer, (htable.2.2.1 peer.id _).2 ⟨peer, hpeer, rfl⟩, htable.2.1⟩

end Ruxmsg.Cli

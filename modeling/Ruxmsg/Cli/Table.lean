import Ruxmsg.Cli.Turns
import Ruxmsg.Library.History

namespace Ruxmsg.Cli

open Library.Machine Library.Index

section Events

namespace NetEvent

def connection : NetEvent → Option ConnId
  | .opened handle _ _ => some handle.id
  | .conn id _ => some id
  | _ => none

def opens (id : ConnId) : NetEvent → Bool
  | .opened handle _ _ => handle.id = id
  | _ => false

def closes (id : ConnId) : NetEvent → Bool
  | .conn other (.closed _) => other = id
  | _ => false

def asks (id : ConnId) : NetEvent → Bool
  | .conn other (.sasRequired _ _) => other = id
  | _ => false

/-- What the net layer sends after some events: the ids of connections are
distinct, a connection opens first, and its end is its last event. -/
def Follows (before : List NetEvent) : NetEvent → Prop
  | .opened handle _ _ => ∀ earlier ∈ before, earlier.connection ≠ some handle.id
  | .conn id _ => (∃ earlier ∈ before, earlier.opens id) ∧ ∀ earlier ∈ before, ¬ earlier.closes id
  | _ => True

variable {id : ConnId} {event : NetEvent}

theorem connection_of_opens (h : event.opens id) : event.connection = some id := by
  rw [opens.eq_def] at h
  split at h
  · exact congrArg some (of_decide_eq_true h)
  · cases h

theorem closes_iff : event.closes id ↔ ∃ cause, event = .conn id (.closed cause) := by
  constructor
  · intro h
    rw [closes.eq_def] at h
    split at h
    · exact ⟨_, by rw [of_decide_eq_true h]⟩
    · cases h
  · rintro ⟨cause, rfl⟩
    exact decide_eq_true rfl

end NetEvent

def Input.event? : Input → Option NetEvent
  | .net event => some event
  | _ => none

def events (turns : List (Replies × Input)) : List NetEvent := turns.filterMap fun turn => turn.2.event?

def Orderly (events : List NetEvent) : Prop := Each NetEvent.Follows events

end Events

def App.step (self : App) (turn : Replies × Input) : App × Except Fault Unit × List Call :=
  ((self.handle turn.1 turn.2).2.1, (self.handle turn.1 turn.2).1, (self.handle turn.1 turn.2).2.2)

abbrev Turned := Record App (Replies × Input) (Except Fault Unit × List Call)

/-- What the events say of a connection is what the table says of it. -/
structure Session.Known (events : List NetEvent) (session : Session) : Prop where
  opened : ∃ event ∈ events, event.opens session.id
  closed_iff : session.status = .closed ↔ ∃ event ∈ events, event.closes session.id

namespace Sessions

/-- The table against all events so far. An open connection is in it, unless the
labels have run out. -/
structure Tracks (events : List NetEvent) (s : Sessions) : Prop where
  consistent : s.Consistent
  known : ∀ label session, s.peers label = some session → session.Known events
  complete : s.labels < u64Max → ∀ id, (∃ event ∈ events, event.opens id) → (∀ event ∈ events, ¬ event.closes id) →
    ∃ label, s.byId id = some label

section Tracks

variable {events : List NetEvent} {s s' : Sessions} {input : Input} {given : List (ConnId × Bool)}
  {label : Text} {session : Session}

theorem Tracks.accepts (h : s.Tracks events) (hf : ∀ event, input.event? = some event → event.Follows events) :
    s.Accepts input where
  fresh := by
    rintro handle remote outbound rfl
    have hnew : ∀ earlier ∈ events, earlier.connection ≠ some handle.id := hf _ rfl
    apply Option.eq_none_iff_forall_ne_some.2
    intro label hplace
    obtain ⟨session, hlabel, hid⟩ := h.consistent.indexed.entry hplace
    obtain ⟨event, hevent, hopens⟩ := (h.known label session hlabel).opened
    rw [hid] at hopens
    exact hnew event hevent (NetEvent.connection_of_opens hopens)
  alive := by
    rintro id event label session rfl hplace hlabel hclosed
    obtain ⟨-, hsilent⟩ : _ ∧ ∀ earlier ∈ events, ¬ earlier.closes id := hf _ rfl
    obtain ⟨session', hlabel', rfl⟩ := h.consistent.indexed.entry hplace
    obtain rfl := Option.some.inj (hlabel.symm.trans hlabel')
    obtain ⟨event, hevent, hcloses⟩ := (h.known label session hlabel).closed_iff.1 hclosed
    exact hsilent event hevent hcloses

theorem Known.kept (h : session.Known events) (hopen : ∀ cause, input ≠ .net (.conn session.id (.closed cause))) :
    session.Known (events ++ input.event?.toList) where
  opened := by
    obtain ⟨event, hevent, hopens⟩ := h.opened
    exact ⟨event, List.mem_append_left _ hevent, hopens⟩
  closed_iff := by
    rw [h.closed_iff]
    constructor
    · rintro ⟨event, hevent, hcloses⟩
      exact ⟨event, List.mem_append_left _ hevent, hcloses⟩
    · rintro ⟨event, hevent, hcloses⟩
      rcases List.mem_append.1 hevent with hevent | hevent
      · exact ⟨event, hevent, hcloses⟩
      · obtain ⟨cause, rfl⟩ := NetEvent.closes_iff.1 hcloses
        cases input with
        | net event =>
            obtain rfl := List.mem_singleton.1 hevent
            exact absurd rfl (hopen cause)
        | terminal | tick => cases hevent

theorem Consistent.closed_ne (hs : s.Consistent) {l : Text} {e : Session} {id : ConnId} {cause : CloseCause}
    (hinput : input = .net (.conn id (.closed cause))) (hplace : s.byId id = some label) (he : s.peers l = some e)
    (hl : l ≠ label) : ∀ cause, input ≠ .net (.conn e.id (.closed cause)) := by
  rintro cause' rfl
  obtain ⟨hid, -⟩ : e.id = id ∧ cause' = cause := by simpa using hinput
  rw [← hid, hs.indexed.place he] at hplace
  exact hl (Option.some.inj hplace)

/-- An open connection stays in the table, and gets into it as it opens. -/
theorem Turn.complete (h : Turn input s given s') (ht : s.Tracks events) (hlabels : s'.labels < u64Max) (id : ConnId)
    (hopened : ∃ event ∈ events ++ input.event?.toList, event.opens id)
    (hopen : ∀ event ∈ events ++ input.event?.toList, ¬ event.closes id) : ∃ label, s'.byId id = some label := by
  have hbefore : ∀ event ∈ events, ¬ event.closes id := fun event hevent => hopen event (List.mem_append_left _ hevent)
  have hold (hquiet : ∀ event, input.event? = some event → ¬ event.opens id) (hle : s.labels < u64Max) :
      ∃ label, s.byId id = some label := by
    obtain ⟨event, hevent, hopens⟩ := hopened
    rcases List.mem_append.1 hevent with hevent | hevent
    · exact ht.complete hle id ⟨event, hevent, hopens⟩ hbefore
    · exact absurd hopens (hquiet event (Option.mem_toList.1 hevent))
  have hkept {session : Session} (hclosed : session.status = .closed) (hlabel : ∃ label, s.peers label = some session) :
      id ≠ session.id := by
    rintro rfl
    obtain ⟨label, hlabel⟩ := hlabel
    obtain ⟨event, hevent, hcloses⟩ := (ht.known label session hlabel).closed_iff.1 hclosed
    exact hbefore event hevent hcloses
  cases h with
  | edits _ full =>
      refine hold ?_ hlabels
      intro event hevent hopens
      cases input with
      | net event' =>
          obtain rfl := Option.some.inj hevent
          cases event' with
          | opened handle remote outbound => exact absurd (full handle remote outbound rfl) (Nat.not_le.2 hlabels)
          | _ => cases hopens
      | terminal | tick => cases hevent
  | answers hinput | targets hinput | enters hinput | leaves hinput =>
      exact hold (by simp [hinput, Input.event?]) hlabels
  | establishes hinput | asks hinput | refuses hinput | closes hinput =>
      exact hold (by simp [hinput, Input.event?, NetEvent.opens]) hlabels
  | @forgets key label session hinput hqueue hchat hlabel hclosed =>
      obtain ⟨label', hplace⟩ := hold (by simp [hinput, Input.event?]) hlabels
      refine ⟨label', ?_⟩
      exact (Function.update_of_ne (hkept hclosed ⟨label, hlabel⟩) ..).trans hplace
  | @opens handle remote outbound hinput =>
      by_cases hid : id = handle.id
      · subst hid
        exact ⟨_, Function.update_self ..⟩
      · obtain ⟨label, hplace⟩ := hold (by simp [hinput, Input.event?, NetEvent.opens, Ne.symm hid])
          (Nat.lt_of_succ_lt hlabels)
        exact ⟨label, (Function.update_of_ne hid ..).trans hplace⟩
  | @ends ended cause label session hinput hplace hlabel hunviewed =>
      obtain ⟨label', hplace'⟩ := hold (by simp [hinput, Input.event?, NetEvent.opens]) hlabels
      obtain ⟨session', hlabel', hid⟩ := ht.consistent.indexed.entry hplace
      obtain rfl := Option.some.inj (hlabel.symm.trans hlabel')
      have hne : id ≠ session.id := by
        rintro rfl
        have hlast : .conn session.id (.closed cause) ∈ events ++ input.event?.toList := by
          rw [hinput, hid]
          exact List.mem_append_right _ (List.mem_singleton_self _)
        exact hopen _ hlast (NetEvent.closes_iff.2 ⟨cause, rfl⟩)
      exact ⟨label', (Function.update_of_ne hne ..).trans hplace'⟩

theorem Turn.tracks (h : Turn input s given s') (ht : s.Tracks events)
    (hf : ∀ event, input.event? = some event → event.Follows events) :
    s'.Tracks (events ++ input.event?.toList) := by
  refine ⟨h.consistent ht.consistent (ht.accepts hf), ?_, h.complete ht⟩
  intro l e he
  cases h with
  | edits quiet =>
      apply Known.kept (ht.known l e he)
      rintro cause rfl
      exact absurd rfl (ht.consistent.indexed.not_mem (quiet _ _ rfl) he)
  | answers hinput | targets hinput | enters hinput | leaves hinput =>
      subst hinput
      exact Known.kept (ht.known l e he) (by simp)
  | forgets hinput =>
      subst hinput
      rcases update_eq_some.1 he with ⟨-, h⟩ | ⟨-, h⟩
      · cases h
      · exact Known.kept (ht.known l e h) (by simp)
  | @opens handle _ _ hinput =>
      subst hinput
      rcases update_eq_some.1 he with ⟨-, h⟩ | ⟨-, h⟩
      · obtain rfl := Option.some.inj h
        refine ⟨⟨_, List.mem_append_right _ (List.mem_singleton_self _), decide_eq_true rfl⟩, by simp, ?_⟩
        rintro ⟨event, hevent, hcloses⟩
        have hnew : ∀ earlier ∈ events, earlier.connection ≠ some handle.id := hf _ rfl
        obtain ⟨cause, rfl⟩ := NetEvent.closes_iff.1 hcloses
        rcases List.mem_append.1 hevent with hevent | hevent
        · exact absurd rfl (hnew _ hevent)
        · cases List.mem_singleton.1 hevent
      · exact Known.kept (ht.known l e h) (by simp)
  | @establishes id peer _ session hinput hplace hlabel =>
      have hkept (cause : CloseCause) : input ≠ .net (.conn e.id (.closed cause)) := by
        rw [hinput]
        simp
      rcases update_eq_some.1 he with ⟨-, h⟩ | ⟨-, h⟩
      · obtain rfl := Option.some.inj h
        have hknown := Known.kept (ht.known _ _ hlabel) hkept
        have halive : session.status ≠ .closed := (ht.accepts hf).alive _ _ _ _ hinput hplace hlabel
        refine ⟨hknown.opened, by simp, ?_⟩
        intro hcloses
        exact absurd (hknown.closed_iff.2 hcloses) halive
      · exact Known.kept (ht.known l e h) hkept
  | asks hinput | refuses hinput =>
      subst hinput
      exact Known.kept (ht.known l e he) (by simp)
  | @closes id cause label session hinput hplace hlabel =>
      rcases update_eq_some.1 he with ⟨-, h⟩ | ⟨hl, h⟩
      · obtain rfl := Option.some.inj h
        obtain ⟨session', hlabel', rfl⟩ := ht.consistent.indexed.entry hplace
        obtain rfl := Option.some.inj (hlabel.symm.trans hlabel')
        subst hinput
        obtain ⟨event, hevent, hopens⟩ := (ht.known _ _ hlabel).opened
        exact ⟨⟨event, List.mem_append_left _ hevent, hopens⟩, fun _ =>
          ⟨_, List.mem_append_right _ (List.mem_singleton_self _), decide_eq_true rfl⟩, fun _ => rfl⟩
      · exact Known.kept (ht.known l e h) (ht.consistent.closed_ne hinput hplace h hl)
  | ends hinput hplace =>
      rcases update_eq_some.1 he with ⟨-, h⟩ | ⟨hl, h⟩
      · cases h
      · exact Known.kept (ht.known l e h) (ht.consistent.closed_ne hinput hplace h hl)

theorem Turn.labels_le (h : Turn input s given s') : s.labels ≤ s'.labels := by
  cases h with
  | opens => exact Nat.le_succ s.labels
  | _ => exact le_rfl

theorem Turn.label_of_opens (h : Turn input s given s') {handle : ConnectionHandle} {remote : Text} {outbound : Bool}
    (hinput : input = .net (.opened handle remote outbound)) (hfresh : s.byId handle.id = none)
    (hplace : s'.byId handle.id = some label) :
    label = peerLabel (s.labels + 1) ∧ s'.labels = s.labels + 1 := by
  subst hinput
  generalize hi : Input.net (.opened handle remote outbound) = input at h
  cases h with
  | opens h =>
      cases hi.trans h
      rcases update_eq_some.1 hplace with ⟨-, hplace⟩ | ⟨hne, -⟩
      · exact ⟨(Option.some.inj hplace).symm, rfl⟩
      · exact absurd rfl hne
  | edits => cases hfresh.symm.trans hplace
  | answers h | targets h | enters h | leaves h | forgets h | establishes h | asks h | refuses h | closes h | ends h =>
      cases hi.trans h

end Tracks

end Sessions

def Turned.label? (turned : Turned) : Option Text :=
  match turned.input.2 with
  | .net (.opened handle _ _) => turned.post.byId.lookup handle.id
  | _ => none

/-- The labels given so far differ, and the next one is none of them. -/
structure Named (turns : List Turned) (app : App) : Prop where
  nodup : (turns.filterMap Turned.label?).Nodup
  numbered : ∀ label ∈ turns.filterMap Turned.label?, ∃ n ≤ app.nextLabel, label = peerLabel n

theorem Named.step {turns : List Turned} {app : App} {turn : Replies × Input} (h : Named turns app)
    (hs : app.sessions.Consistent) (ha : app.sessions.Accepts turn.2) :
    Named (turns ++ [record App.step app turn]) (app.step turn).1 := by
  have hturn : Sessions.Turn turn.2 app.sessions _ (app.step turn).1.sessions := App.handle_turn hs turn.1 turn.2
  have hle : app.nextLabel ≤ (app.step turn).1.nextLabel := hturn.labels_le
  have hkept (label : Text) (hlabel : label ∈ turns.filterMap Turned.label?) :
      ∃ n ≤ (app.step turn).1.nextLabel, label = peerLabel n := by
    obtain ⟨n, hn, hlabel⟩ := h.numbered label hlabel
    exact ⟨n, hn.trans hle, hlabel⟩
  cases hlabel : Turned.label? (record App.step app turn) with
  | none =>
      have hsame : (turns ++ [record App.step app turn]).filterMap Turned.label? = turns.filterMap Turned.label? := by
        rw [List.filterMap_append, List.filterMap_cons_none hlabel, List.filterMap_nil, List.append_nil]
      exact ⟨by rw [hsame]; exact h.nodup, by rw [hsame]; exact hkept⟩
  | some label =>
      have hmore : (turns ++ [record App.step app turn]).filterMap Turned.label? =
          turns.filterMap Turned.label? ++ [label] := by
        rw [List.filterMap_append, List.filterMap_cons_some hlabel, List.filterMap_nil]
      have hnew : label = peerLabel (app.nextLabel + 1) ∧ (app.step turn).1.nextLabel = app.nextLabel + 1 := by
        rw [Turned.label?] at hlabel
        split at hlabel
        · next hinput => exact hturn.label_of_opens hinput (ha.fresh _ _ _ hinput) hlabel
        · cases hlabel
      obtain ⟨rfl, hnext⟩ := hnew
      constructor
      · rw [hmore, List.nodup_append]
        refine ⟨h.nodup, List.nodup_singleton _, ?_⟩
        rintro label hlabel _ hlast rfl
        obtain ⟨n, hn, hlabel⟩ := h.numbered label hlabel
        have := peerLabel_inj ((List.mem_singleton.1 hlast).symm.trans hlabel)
        omega
      · intro label hlabel
        rw [hmore] at hlabel
        rcases List.mem_append.1 hlabel with hlabel | hlabel
        · exact hkept label hlabel
        · exact ⟨_, hnext.ge, List.mem_singleton.1 hlabel⟩

section Reachable

variable (keys : KeyMap) (turns : List (Replies × Input))

theorem events_append (turns : List (Replies × Input)) (turn : Replies × Input) :
    events (turns ++ [turn]) = events turns ++ turn.2.event?.toList := by
  cases h : turn.2.event? <;> simp [events, h]

theorem new_consistent : (App.new keys).sessions.Consistent where
  indexed := Indexes.empty
  fits := by simp [App.new, App.sessions]
  queued := by simp [App.new, App.sessions]
  targeted := by simp [App.new, App.sessions]
  queue_le := Nat.zero_le _

theorem new_tracks : (App.new keys).sessions.Tracks [] :=
  ⟨new_consistent keys, by simp [App.new, App.sessions], by simp⟩

theorem Orderly.follows {events : List NetEvent} {input : Input} (h : Orderly (events ++ input.event?.toList)) :
    Orderly events ∧ ∀ event, input.event? = some event → event.Follows events := by
  refine ⟨h.left_of_append, ?_⟩
  intro event hevent
  rw [hevent] at h
  exact h.last

/-- The table follows the events, whatever is pressed and typed in between. -/
theorem reachable_tracks (h : Orderly (events turns)) :
    (final App.step (App.new keys) turns).sessions.Tracks (events turns) ∧
      Named (trace App.step (App.new keys) turns) (final App.step (App.new keys) turns) := by
  have hrun := trace_induction App.step
    (fun past app => Orderly (events (past.map Record.input)) →
      app.sessions.Tracks (events (past.map Record.input)) ∧ Named past app) (App.new keys)
    (fun _ => ⟨new_tracks keys, List.nodup_nil, by simp⟩) ?next turns
  · rw [trace_inputs] at hrun
    exact hrun h
  · intro past app turn ih horderly
    rw [List.map_append, List.map_singleton, record_input, events_append] at horderly ⊢
    obtain ⟨hbefore, hfollows⟩ := horderly.follows
    obtain ⟨htracks, hnamed⟩ := ih hbefore
    exact ⟨(App.handle_turn htracks.consistent turn.1 turn.2).tracks htracks hfollows,
      hnamed.step htracks.consistent (htracks.accepts hfollows)⟩

/-- The session table stays consistent: `by_id` and `peers` are inverse to each
other, no label is given twice, and a closed session is kept only while its own
chat is open, with no question pending and no longer a target. -/
theorem session_table (h : Orderly (events turns)) :
    let app := final App.step (App.new keys) turns
    (∀ id label, app.byId.lookup id = some label ↔ ∃ peer, app.peers.lookup label = some peer ∧ peer.id = id) ∧
    ((trace App.step (App.new keys) turns).filterMap Turned.label?).Nodup ∧
    (∀ label peer, app.peers.lookup label = some peer → peer.status = .closed →
      ∃ view, app.mode = .chat view ∧ view.label = label) ∧
    (∀ pending ∈ app.sas, ∃ peer,
      app.peers.lookup pending.label = some peer ∧ peer.id = pending.id ∧ peer.status ≠ .closed) ∧
    ∀ label, app.defaultTarget = some label →
      ∃ peer, app.peers.lookup label = some peer ∧ peer.status ≠ .closed := by
  intro app
  obtain ⟨htracks, hnamed⟩ := reachable_tracks keys turns h
  obtain ⟨hindexed, hfits, hqueued, htargeted, -⟩ := htracks.consistent
  refine ⟨?_, hnamed.nodup, ?_, ?_, ?_⟩
  · intro id label
    rw [show app.byId.lookup id = app.sessions.byId id from rfl, hindexed id label]
    constructor
    · rintro ⟨session, hlabel, hid⟩
      obtain ⟨peer, hpeer, rfl⟩ := App.lookup_of_sessions hlabel
      exact ⟨peer, hpeer, hid⟩
    · rintro ⟨peer, hpeer, hid⟩
      exact ⟨peer.session, App.sessions_peers hpeer, hid⟩
  · intro label peer hpeer hclosed
    have hchat : app.sessions.chat = some label := (hfits label peer.session (App.sessions_peers hpeer)).viewed hclosed
    cases hmode : app.mode with
    | repl => simp [App.sessions, hmode] at hchat
    | chat view => exact ⟨view, rfl, by simpa [App.sessions, hmode] using hchat⟩
  · intro pending hpending
    obtain ⟨session, hlabel, hid, halive⟩ := hqueued pending.question (List.mem_map_of_mem hpending)
    obtain ⟨peer, hpeer, rfl⟩ := App.lookup_of_sessions hlabel
    exact ⟨peer, hpeer, hid, halive⟩
  · intro label hlabel
    obtain ⟨id, session, hsession, -, halive⟩ := htargeted label hlabel
    obtain ⟨peer, hpeer, rfl⟩ := App.lookup_of_sessions hsession
    exact ⟨peer, hpeer, halive⟩

end Reachable

namespace Sample

def plain : Replies where
  now := 0
  handle := .ok ()
  listen := .error []
  loaded := .ok none
  saved := .ok ()
  generated := Bytes.replicate 32 0
  tryInit := .ok ()
  draw := .ok ()
  maxScroll := none
  newline := .ok ()
  prompt := .ok ()

def press (code : KeyCode) : Replies × Input :=
  (plain, .terminal (.press { code, control := false, alt := false }))

def type (line : String) : List (Replies × Input) := line.toList.map fun c => press (.char c)

def receive (event : NetEvent) : Replies × Input := (plain, .net event)

def asking : List (Replies × Input) :=
  [receive (.opened ⟨⟨1⟩⟩ "peer".toList false),
    receive (.conn ⟨1⟩ (.sasRequired ["one", "two", "three"] (Bytes.replicate 32 7)))] ++ type "yes"

/-- The answer is given, and the peer leaves while its chat is open. -/
def chatting : List (Replies × Input) :=
  asking ++ press .enter :: (receive (.conn ⟨1⟩ (.established (Bytes.replicate 32 7))) ::
    (type "chat peer1" ++ [press .enter, receive (.conn ⟨1⟩ (.closed .transportLost))]))

theorem chatting_orderly : Orderly (events chatting) := by
  show Each NetEvent.Follows ([] ++ [_] ++ [_] ++ [_] ++ [_])
  refine (((each_nil.snoc ?_).snoc ?_).snoc ?_).snoc ?_ <;>
    simp [NetEvent.Follows, NetEvent.opens, NetEvent.closes]

end Sample

open Cli.Sample in
/-- A closed session is still there while its chat is open. -/
theorem session_table_chatting : ∃ view,
    (final App.step (App.new .default) chatting).mode = .chat view ∧ view.label = "peer1".toList := by
  have hclosed : (((final App.step (App.new .default) chatting).peers.lookup "peer1".toList).any
      fun peer => peer.status = .closed) = true := by
    decide +kernel
  obtain ⟨peer, hpeer, hstatus⟩ := (Option.any_eq_true ..).1 hclosed
  exact (session_table .default chatting chatting_orderly).2.2.1 _ peer hpeer (of_decide_eq_true hstatus)

end Ruxmsg.Cli

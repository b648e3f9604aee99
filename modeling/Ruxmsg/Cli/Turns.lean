import Ruxmsg.Cli.Sessions

namespace Ruxmsg.Cli

open Library.Index

def Peer.session (peer : Peer) : Session := { id := peer.id, handle := peer.handle, status := peer.status }

def PendingSas.question (pending : PendingSas) : Question :=
  { id := pending.id, label := pending.label, typed := pending.typed }

namespace App

def sessions (self : App) : Sessions where
  byId id := self.byId.lookup id
  peers label := (self.peers.lookup label).map Peer.session
  target := self.defaultTarget
  labels := self.nextLabel
  queue := self.sas.map PendingSas.question
  chat :=
    match self.mode with
    | .repl => none
    | .chat view => some view.label

variable {self : App} {replies : Replies} {label : Text} {peer : Peer} {f : Peer → Peer} {key : KeyEvent}
  {id : ConnId}

theorem sessions_peers (h : self.peers.lookup label = some peer) :
    self.sessions.peers label = some peer.session := by
  simp only [sessions, h, Option.map_some]

theorem lookup_of_sessions {session : Session} (h : self.sessions.peers label = some session) :
    ∃ peer, self.peers.lookup label = some peer ∧ peer.session = session := by
  simpa only [sessions, Option.map_eq_some_iff] using h

theorem sessions_modify (h : self.peers.lookup label = some peer) : (self.modify label f).sessions =
    { self.sessions with peers := Function.update self.sessions.peers label (some (f peer).session) } := by
  simp only [modify, h]
  simp only [sessions, map_lookup_insert]

theorem sessions_modify_same (hf : ∀ peer, (f peer).session = peer.session) :
    (self.modify label f).sessions = self.sessions := by
  cases h : self.peers.lookup label with
  | none => simp only [modify, h]
  | some peer =>
      rw [sessions_modify h, hf peer, ← sessions_peers h, Function.update_eq_self]

@[simp] theorem sessions_notice (label text : Text) : (self.notice label text).sessions = self.sessions :=
  sessions_modify_same fun _ => rfl

@[simp] theorem sessions_redrawChat : (self.redrawChat replies).2.sessions = self.sessions := by
  rw [redrawChat]
  split
  · next view _ hmode _ => simp only [sessions, hmode]
  · rfl

theorem sessions_forget (h : self.peers.lookup label = some peer) :
    (self.forget label).sessions = self.sessions.forgotten label peer.session := by
  simp only [forget, h]
  simp only [sessions, Sessions.forgotten, map_lookup_erase, lookup_erase]
  rfl

theorem views_iff : self.views label = true ↔ self.sessions.chat = some label := by
  cases h : self.mode <;> simp [views, sessions, h]

@[simp] theorem sessions_editTyped (f : Text → Text) :
    (self.editTyped f).sessions = self.sessions.edited f := by
  cases h : self.sas with
  | nil => simp [editTyped, sessions, Sessions.edited, h]
  | cons pending sas => simp [editTyped, sessions, Sessions.edited, h, PendingSas.question]

end App

namespace Sessions

variable {s : Sessions} {key : KeyEvent}

theorem edited_nil (h : s.queue = []) (f : Text → Text) : s.edited f = s := by
  cases s
  cases h
  rfl

@[simp] theorem edited_id (s : Sessions) : s.edited id = s := by
  cases s with
  | mk byId peers target labels queue chat =>
      cases queue <;> rfl

theorem Turn.still {input : Input} (hedit : input.edit = id)
    (quiet : ∀ id cause, input = .net (.conn id (.closed cause)) → s.byId id = none)
    (full : ∀ handle remote outbound, input = .net (.opened handle remote outbound) → u64Max ≤ s.labels) :
    Turn input s [] s := by
  have h : Turn input s [] (s.edited input.edit) := .edits quiet full
  rwa [hedit, edited_id] at h

theorem Turn.idle (h : s.queue = []) : Turn (.terminal (.press key)) s [] s := by
  have hedits : Turn (.terminal (.press key)) s [] (s.edited key.edit) := .edits (by simp) (by simp)
  rwa [edited_nil h] at hedits

end Sessions

namespace App

variable {self : App} {replies : Replies} {label : Text} {peer : Peer} {key : KeyEvent} {id : ConnId}

section Net

open Sessions

theorem onSasRequired_turn (hs : self.sessions.Consistent) (hplace : self.byId.lookup id = some label)
    (words : List String) (peerIdentity : PeerIdentity) :
    Turn (.net (.conn id (.sasRequired words peerIdentity))) self.sessions
      (answers (self.onSasRequired replies id label words peerIdentity).2)
      (self.onSasRequired replies id label words peerIdentity).1.sessions := by
  obtain ⟨session, hsession, -⟩ := hs.indexed.entry hplace
  obtain ⟨peer, hpeer, rfl⟩ := lookup_of_sessions hsession
  have hmodified : (self.modify label fun peer =>
      { peer with fingerprint := some (Cli.fingerprint peerIdentity) }).sessions = self.sessions :=
    sessions_modify_same fun _ => rfl
  rw [onSasRequired]
  rw [hpeer]
  dsimp only
  generalize self.modify label _ = modified at hmodified
  have hlength : modified.sas.length = self.sessions.queue.length := by
    rw [← hmodified]
    exact (List.length_map ..).symm
  by_cases hfull : maxUnauthenticatedHandshakes ≤ modified.sas.length
  · rw [if_pos hfull]
    dsimp only
    rw [sessions_notice, hmodified]
    exact .refuses rfl hplace hsession
  · rw [if_neg hfull]
    dsimp only
    have hasked (pending : PendingSas) :
        ({ modified with touched := true, sas := modified.sas ++ [pending] } : App).sessions =
          { self.sessions with queue := self.sessions.queue ++ [pending.question] } := by
      rw [← hmodified]
      simp only [sessions, List.map_append, List.map_singleton]
    rw [hasked]
    exact .asks rfl hplace (by omega)

theorem sessions_dropped (id : ConnId) (hpeer : self.peers.lookup label = some peer) {f : Peer → Peer} :
    let dropped := { self with sas := self.sas.filter fun pending => pending.id ≠ id }.modify label f
    ({ dropped with
        defaultTarget := if dropped.defaultTarget = some label then none else dropped.defaultTarget } : App).sessions =
      { self.sessions.dropped id label with
        peers := Function.update self.sessions.peers label (some (f peer).session) } := by
  intro dropped
  have hdropped : dropped.sessions =
      { ({ self with sas := self.sas.filter fun pending => pending.id ≠ id } : App).sessions with
        peers := Function.update self.sessions.peers label (some (f peer).session) } := sessions_modify hpeer
  have hqueue : (self.sas.filter fun pending => pending.id ≠ id).map PendingSas.question =
      self.sessions.queue.filter fun q => q.id ≠ id := by
    simp only [sessions, List.filter_map]
    rfl
  have htarget : dropped.defaultTarget = self.defaultTarget := congrArg Sessions.target hdropped
  rw [htarget]
  calc ({ dropped with
        defaultTarget := if self.defaultTarget = some label then none else self.defaultTarget } : App).sessions
      = { dropped.sessions with target := if self.defaultTarget = some label then none else self.defaultTarget } := rfl
    _ = _ := by
      rw [hdropped]
      simp only [Sessions.dropped, ← hqueue]
      rfl

theorem onClosed_turn (hs : self.sessions.Consistent) (hplace : self.byId.lookup id = some label)
    (cause : CloseCause) :
    Turn (.net (.conn id (.closed cause))) self.sessions [] (self.onClosed id label cause).sessions := by
  obtain ⟨session, hsession, hid⟩ := hs.indexed.entry hplace
  obtain ⟨peer, hpeer, rfl⟩ := lookup_of_sessions hsession
  have hdropped := sessions_dropped id hpeer (f := fun peer =>
    { peer with
      status := .closed
      rekeying := false
      closeNote := some (causeText cause)
      scrollback := peer.scrollback.push .system (causeText cause) })
  rw [onClosed]
  dsimp only at hdropped ⊢
  generalize ({ App.modify _ label _ with defaultTarget := _ } : App) = dropped at hdropped ⊢
  have hchat : dropped.sessions.chat = self.sessions.chat := by rw [hdropped]; rfl
  by_cases hviews : dropped.views label = true
  · rw [if_pos hviews, hdropped]
    rw [views_iff, hchat] at hviews
    exact .closes rfl hplace hsession hviews
  · rw [if_neg hviews]
    rw [views_iff, hchat] at hviews
    have hclosed : dropped.sessions.peers label = some { peer.session with status := .closed } := by
      rw [hdropped]
      exact Function.update_self ..
    obtain ⟨peer', hpeer', hsession'⟩ := lookup_of_sessions hclosed
    have hforgotten : (dropped.forget label).sessions = (self.sessions.dropped id label).forgotten label peer.session := by
      rw [sessions_forget hpeer', hsession', hdropped]
      simp only [Sessions.forgotten, Function.update_idem]
      rfl
    rw [hforgotten]
    exact .ends rfl hplace hsession hviews

theorem onMessage_sessions (label : Text) (bytes : List UInt8) :
    (self.onMessage label bytes).sessions = self.sessions := by
  have hmodified (f : Peer → Peer) (hf : ∀ peer, (f peer).session = peer.session) :
      ({ self with touched := true }.modify label f).sessions = self.sessions := sessions_modify_same hf
  rw [onMessage.eq_def]
  dsimp only
  specialize hmodified (fun peer => { peer with
    unread := if self.views label then peer.unread else peer.unread + 1
    scrollback := peer.scrollback.push .remote (ingest bytes) }) fun _ => rfl
  generalize App.modify _ label _ = modified at hmodified ⊢
  rw [← hmodified]
  cases hmode : modified.mode with
  | repl => rfl
  | chat view =>
      dsimp only
      split
      · simp only [sessions, hmode]
      · rfl

theorem onConnEvent_turn (hs : self.sessions.Consistent) (replies : Replies) (id : ConnId) (event : ConnEvent) :
    Turn (.net (.conn id event)) self.sessions (answers (self.onConnEvent replies id event).2)
      (self.onConnEvent replies id event).1.sessions := by
  rw [onConnEvent]
  cases hplace : self.byId.lookup id with
  | none =>
      refine .still rfl ?_ (by simp)
      rintro _ cause ⟨rfl, -⟩
      exact hplace
  | some label =>
      have hsame {app : App} (hevent : ∀ cause, event ≠ .closed cause) (h : app.sessions = self.sessions) :
          Turn (.net (.conn id event)) self.sessions [] app.sessions := by
        rw [h]
        refine .still rfl ?_ (by simp)
        rintro _ cause ⟨-, rfl⟩
        exact absurd rfl (hevent cause)
      cases event with
      | sasRequired words peerIdentity => exact onSasRequired_turn hs hplace words peerIdentity
      | established peerIdentity =>
          obtain ⟨session, hsession, -⟩ := hs.indexed.entry hplace
          obtain ⟨peer, hpeer, rfl⟩ := lookup_of_sessions hsession
          dsimp only
          rw [sessions_modify hpeer]
          exact .establishes rfl hplace hsession
      | message content => exact hsame (by simp) (onMessage_sessions label content)
      | rekeyStarted | rekeyCompleted => exact hsame (by simp) (sessions_modify_same fun _ => rfl)
      | rekeyFailed failure =>
          apply hsame (by simp)
          rw [sessions_notice]
          exact sessions_modify_same fun _ => rfl
      | dataRejected =>
          apply hsame (by simp)
          apply sessions_modify_same
          intro peer
          split <;> rfl
      | sendRejected reason => cases reason <;> exact hsame (by simp) (sessions_notice _ _)
      | closed cause => exact onClosed_turn hs hplace cause

variable (self) in
/-- An opened connection gets the next label and an entry of its own, or there
is no label left. -/
theorem onOpened_cases (handle : ConnectionHandle) (remote : Text) (outbound : Bool) :
    ((self.onOpened handle remote outbound).2 = self ∧ u64Max ≤ self.nextLabel) ∨
      (self.onOpened handle remote outbound).2 = { self with
        nextLabel := self.nextLabel + 1
        byId := self.byId.insert handle.id (peerLabel (self.nextLabel + 1))
        peers := self.peers.insert (peerLabel (self.nextLabel + 1)) (.fresh handle remote outbound) } := by
  rw [onOpened, freshLabel]
  by_cases hroom : self.nextLabel < u64Max
  · rw [if_pos hroom]
    exact .inr rfl
  · rw [if_neg hroom]
    exact .inl ⟨rfl, Nat.le_of_not_lt hroom⟩

variable (self) in
theorem onOpened_sessions (handle : ConnectionHandle) (remote : Text) (outbound : Bool) :
    ((self.onOpened handle remote outbound).2.sessions = self.sessions ∧ u64Max ≤ self.sessions.labels) ∨
      (self.onOpened handle remote outbound).2.sessions = self.sessions.opened handle := by
  rcases self.onOpened_cases handle remote outbound with ⟨hopened, hfull⟩ | hopened
  · rw [hopened]
    exact .inl ⟨rfl, hfull⟩
  · rw [hopened]
    right
    simp only [sessions, Sessions.opened, map_lookup_insert, lookup_insert]
    rfl

theorem onNetEvent_turn (hs : self.sessions.Consistent) (replies : Replies) (event : NetEvent) :
    Turn (.net event) self.sessions (answers (self.onNetEvent replies event).2.2)
      (self.onNetEvent replies event).2.1.sessions := by
  cases event with
  | opened handle remote outbound =>
      have hopened := self.onOpened_sessions handle remote outbound
      have hsame : (self.onNetEvent replies (.opened handle remote outbound)).2.1.sessions =
          (self.onOpened handle remote outbound).2.sessions ∧
          (self.onNetEvent replies (.opened handle remote outbound)).2.2 = [] := by
        dsimp only [onNetEvent]
        split
        · next h => exact ⟨by rw [h], rfl⟩
        · next h =>
          dsimp only
          rw [sessions_redrawChat, h]
          exact ⟨rfl, rfl⟩
      rw [hsame.1, hsame.2]
      rcases hopened with ⟨h, hfull⟩ | h
      · rw [h]
        exact .still rfl (by simp) fun _ _ _ _ => hfull
      · rw [h]
        exact .opens rfl
  | dialFailed addr error =>
      dsimp only [onNetEvent]
      rw [sessions_redrawChat]
      exact .still rfl (by simp) (by simp)
  | listenerStopped addr error =>
      dsimp only [onNetEvent]
      rw [sessions_redrawChat]
      exact .still rfl (by simp) (by simp)
  | conn id event =>
      dsimp only [onNetEvent]
      rw [sessions_redrawChat]
      exact onConnEvent_turn hs replies id event

end Net

section Keys

open Sessions

theorem answerSas_turn (hs : self.sessions.Consistent) {approved : Bool}
    (htyped : approved = true → key.code = .enter ∧ self.headApproved = true) :
    Turn (.terminal (.press key)) self.sessions (answers (self.answerSas approved).2)
      (self.answerSas approved).1.sessions := by
  cases hsas : self.sas with
  | nil =>
      simp only [answerSas, hsas]
      exact .idle (by simp only [sessions, hsas, List.map_nil])
  | cons pending sas =>
      have hqueue : self.sessions.queue = pending.question :: sas.map PendingSas.question := by
        simp only [sessions, hsas, List.map_cons]
      obtain ⟨session, hsession, -⟩ := hs.queued pending.question (by rw [hqueue]; exact List.mem_cons_self)
      obtain ⟨peer, hpeer, rfl⟩ := lookup_of_sessions hsession
      have hlookup : self.peers.lookup pending.label = some peer := hpeer
      simp only [answerSas, hsas, hlookup]
      refine .answers rfl hqueue hsession fun h => ⟨(htyped h).1, ?_⟩
      have happroved := (htyped h).2
      rw [headApproved, hsas] at happroved
      exact happroved

theorem sasKey_turn (hs : self.sessions.Consistent) (key : KeyEvent) :
    Turn (.terminal (.press key)) self.sessions (answers (self.sasKey key).2) (self.sasKey key).1.sessions := by
  have hedits : Turn (.terminal (.press key)) self.sessions [] (self.sessions.edited key.edit) :=
    .edits (by simp) (by simp)
  rw [sasKey]
  split
  · next henter => exact answerSas_turn hs fun h => ⟨henter, h⟩
  · exact answerSas_turn hs (by simp)
  · next hbackspace =>
    rw [sessions_editTyped]
    have hedit : key.edit = List.dropLast := by
      funext typed
      rw [KeyEvent.edit, if_pos hbackspace]
    rwa [hedit] at hedits
  · next hbackspace =>
    cases htyped : key.typed with
    | some character =>
        have hedit : key.edit = pushTyped character := by
          funext typed
          rw [KeyEvent.edit, if_neg hbackspace, htyped]
        dsimp only
        rw [sessions_editTyped]
        rwa [hedit] at hedits
    | none =>
        have hedit : key.edit = id := by
          funext typed
          rw [KeyEvent.edit, if_neg hbackspace, htyped, id]
        rwa [hedit, edited_id] at hedits

theorem chatSasKey_turn (hs : self.sessions.Consistent) (key : KeyEvent) :
    Turn (.terminal (.press key)) self.sessions (answers (self.chatSasKey key).2)
      (self.chatSasKey key).1.sessions := by
  rw [chatSasKey]
  split
  · exact answerSas_turn hs (by simp)
  · exact sasKey_turn hs key

variable (self) in
theorem sendText_sessions (replies : Replies) (label text : Text) :
    (self.sendText replies label text).2.1.sessions = self.sessions ∧
      answers (self.sendText replies label text).2.2 = [] := by
  rw [sendText]
  split
  · exact ⟨rfl, rfl⟩
  · split
    · exact ⟨rfl, rfl⟩
    · dsimp only
      split
      · exact ⟨rfl, rfl⟩
      · exact ⟨rfl, rfl⟩
      · exact ⟨sessions_modify_same fun _ => rfl, rfl⟩

variable (self) in
theorem requestRekey_answers (replies : Replies) (label : Text) :
    answers (self.requestRekey replies label).2 = [] := by
  rw [requestRekey]
  split <;> rfl

theorem peer_ok (h : self.peer label = .ok peer) : self.peers.lookup label = some peer := by
  rw [App.peer] at h
  split at h
  · next hlookup => rw [hlookup, Except.ok.inj h]
  · cases h

theorem connectedPeer_ok (h : self.connectedPeer label = .ok peer) :
    self.peers.lookup label = some peer ∧ peer.status = .connected := by
  rw [connectedPeer] at h
  cases hfound : self.peer label with
  | error error =>
      rw [hfound] at h
      cases h
  | ok found =>
      rw [hfound] at h
      change ite .. = _ at h
      split at h
      · cases h
      · next hstatus =>
        obtain rfl := Except.ok.inj h
        exact ⟨peer_ok hfound, not_not.1 hstatus⟩

variable (self) in
theorem switchProfile_sessions (replies : Replies) (name : Text) (create : Bool) :
    (self.switchProfile replies name create).1.sessions = self.sessions ∧
      answers (self.switchProfile replies name create).2 = [] := by
  rw [switchProfile]
  split <;> exact ⟨rfl, rfl⟩

variable (hqueue : self.sessions.queue = [])

include hqueue

theorem tryEnterChat_turn (hchat : self.sessions.chat = none) (replies : Replies) (label : Text) :
    Turn (.terminal (.press key)) self.sessions [] (self.tryEnterChat replies label).sessions := by
  rw [tryEnterChat]
  split
  · next peer hpeer _ =>
    obtain ⟨hlookup, hstatus⟩ := connectedPeer_ok hpeer
    dsimp only
    rw [sessions_redrawChat]
    have hmodified : ({ self with terminal := true, defaultTarget := some label, touched := true }.modify label
        fun peer => { peer with unread := 0 }).sessions = { self.sessions with target := some label } :=
      sessions_modify_same fun _ => rfl
    generalize App.modify _ label _ = modified at hmodified ⊢
    have hentered (view : ChatView) : ({ modified with mode := .chat view } : App).sessions =
        { self.sessions with target := some label, chat := some view.label } :=
      calc ({ modified with mode := .chat view } : App).sessions
          = { modified.sessions with chat := some view.label } := rfl
        _ = { self.sessions with target := some label, chat := some view.label } := by rw [hmodified]
    rw [hentered]
    exact .enters rfl hqueue hchat (sessions_peers hlookup) hstatus
  · exact .idle hqueue

theorem leaveChat_turn {view : ChatView} (hmode : self.mode = .chat view) :
    Turn (.terminal (.press key)) self.sessions [] self.leaveChat.sessions := by
  have hchat : self.sessions.chat = some view.label := by simp only [sessions, hmode]
  have hleft : ({ self with terminal := false, mode := .repl } : App).sessions =
      { self.sessions with chat := none } := rfl
  rw [leaveChat]
  simp only [hmode]
  split
  · next hclosed =>
    obtain ⟨peer, hlookup, hstatus⟩ := (Option.any_eq_true ..).1 hclosed
    have hlookup' : ({ self with terminal := false, mode := .repl } : App).peers.lookup view.label = some peer :=
      hlookup
    rw [sessions_forget hlookup', hleft]
    exact .forgets rfl hqueue hchat (sessions_peers hlookup) (of_decide_eq_true hstatus)
  · next hkept =>
    rw [hleft]
    refine .leaves rfl hqueue hchat ?_
    intro session hsession hclosed
    obtain ⟨peer, hlookup, rfl⟩ := lookup_of_sessions hsession
    apply hkept
    rw [hlookup]
    exact decide_eq_true hclosed

theorem dispatch_turn (hchat : self.sessions.chat = none) (replies : Replies) (line : Text) :
    Turn (.terminal (.press key)) self.sessions (answers (self.dispatch replies line).2)
      (self.dispatch replies line).1.sessions := by
  have hidle {app : App} {calls : List Call} (happ : app.sessions = self.sessions) (hcalls : answers calls = []) :
      Turn (.terminal (.press key)) self.sessions (answers calls) app.sessions := by
    rw [happ, hcalls]
    exact .idle hqueue
  rw [dispatch]
  split
  · exact hidle rfl rfl
  · next command _ =>
    cases command with
    | profile command =>
        cases command with
        | init name | use name =>
            obtain ⟨hsessions, hanswers⟩ := self.switchProfile_sessions replies name _
            exact hidle hsessions hanswers
        | list => exact hidle rfl rfl
    | start addr =>
        dsimp only
        rw [start]
        split
        · exact hidle rfl rfl
        · split <;> exact hidle rfl rfl
    | stop =>
        dsimp only
        rw [stop]
        split <;> exact hidle rfl rfl
    | connect addr =>
        dsimp only
        apply hidle rfl
        rw [dial]
        split <;> rfl
    | use label =>
        dsimp only
        rw [useTarget]
        split
        · exact hidle rfl rfl
        · next hpeer => exact .targets rfl hqueue hchat (sessions_peers (peer_ok hpeer))
    | message label text =>
        obtain ⟨hsessions, hanswers⟩ := self.sendText_sessions replies label text
        exact hidle hsessions hanswers
    | close label =>
        dsimp only
        apply hidle rfl
        rw [closeSession]
        split <;> rfl
    | rekey label => exact hidle rfl (self.requestRekey_answers replies label)
    | chat label =>
        dsimp only
        split
        · exact tryEnterChat_turn hqueue hchat replies _
        · exact hidle rfl rfl
    | peers | fingerprint | session | tailscale | help | quit => exact hidle rfl rfl

theorem chatEnter_turn (replies : Replies) {view : ChatView} (hmode : self.mode = .chat view) :
    Turn (.terminal (.press key)) self.sessions (answers (self.chatEnter replies view).2)
      (self.chatEnter replies view).1.sessions := by
  have hsent : ({ self with mode := .chat { view with input := [], scroll := 0 } } : App).sessions = self.sessions := by
    simp only [sessions, hmode]
  rw [chatEnter.eq_def]
  dsimp only
  generalize ({ self with mode := .chat _ } : App) = sent at hsent ⊢
  split
  · rw [hsent]
    exact .idle hqueue
  · obtain ⟨hsessions, hanswers⟩ := sent.sendText_sessions replies view.label view.input.trim
    split
    · next h =>
      rw [h] at hsessions hanswers
      rw [hanswers, hsessions, hsent]
      exact .idle hqueue
    · next h =>
      rw [h] at hsessions hanswers
      dsimp only at hsessions hanswers ⊢
      rw [hanswers, sessions_notice, hsessions, hsent]
      exact .idle hqueue

theorem chatRekey_turn (replies : Replies) (label : Text) :
    Turn (.terminal (.press key)) self.sessions (answers (self.chatRekey replies label).2)
      (self.chatRekey replies label).1.sessions := by
  have hanswers := self.requestRekey_answers replies label
  rw [chatRekey]
  split
  · next h =>
    rw [h] at hanswers
    rw [hanswers]
    exact .idle hqueue
  · next h =>
    rw [h] at hanswers
    dsimp only at hanswers ⊢
    rw [hanswers, sessions_notice]
    exact .idle hqueue

omit hqueue in
theorem chatKey_turn (hs : self.sessions.Consistent) (replies : Replies) {view : ChatView}
    (hmode : self.mode = .chat view) (key : KeyEvent) :
    Turn (.terminal (.press key)) self.sessions (answers (self.chatKey replies view key).2.2)
      (self.chatKey replies view key).2.1.sessions := by
  rw [chatKey]
  by_cases hsas : self.sas = []
  · have hqueue : self.sessions.queue = [] := by simp only [sessions, hsas, List.map_nil]
    rw [if_neg (not_not.2 hsas)]
    split
    · exact leaveChat_turn hqueue hmode
    · dsimp only
      rw [sessions_redrawChat]
      split
      · exact chatEnter_turn hqueue replies hmode
      · split
        · exact chatRekey_turn hqueue replies view.label
        · have hview : (viewKey self.keys view key).label = view.label := by
            rw [viewKey, scrollKey]
            repeat' split
            all_goals rfl
          have hsame : ({ self with mode := .chat (viewKey self.keys view key) } : App).sessions = self.sessions := by
            simp only [sessions, hmode, hview]
          dsimp only
          rw [hsame]
          exact .idle hqueue
  · rw [if_pos hsas]
    dsimp only
    rw [sessions_redrawChat]
    exact chatSasKey_turn hs key

omit hqueue in
theorem replKey_turn (hs : self.sessions.Consistent) (replies : Replies) (hmode : self.mode = .repl)
    (key : KeyEvent) :
    Turn (.terminal (.press key)) self.sessions (answers (self.replKey replies key).2.2)
      (self.replKey replies key).2.1.sessions := by
  have hchat : self.sessions.chat = none := by simp only [sessions, hmode]
  rw [replKey]
  dsimp only
  split
  · next hquit =>
    have hedit : key.edit = id := by
      obtain ⟨hcontrol, hcode | hcode⟩ := hquit
      all_goals
        funext typed
        simp [KeyEvent.edit, KeyEvent.typed, hcontrol, hcode]
    exact .still hedit (by simp) (by simp)
  · split
    · exact sasKey_turn hs key
    · next hsas =>
      have hqueue : self.sessions.queue = [] := by
        rw [not_not] at hsas
        simp only [sessions, hsas, List.map_nil]
      have hidle (input : Text) : Turn (.terminal (.press key)) self.sessions [] ({ self with input } : App).sessions :=
        .idle hqueue
      split
      · split
        · exact hidle []
        · split
          · exact hidle []
          · have hqueue' : ({ self with input := [] } : App).sessions.queue = [] := hqueue
            exact dispatch_turn hqueue' hchat replies self.input.trim
      · exact hidle _
      · split
        · split
          · exact hidle _
          · exact hidle self.input
        · exact hidle self.input

omit hqueue in
/-- A turn of the loop is a turn of the tables. -/
theorem handle_turn (hs : self.sessions.Consistent) (replies : Replies) (input : Input) :
    Turn input self.sessions (answers (self.handle replies input).2.2) (self.handle replies input).2.1.sessions := by
  cases input with
  | net event => exact onNetEvent_turn hs replies event
  | tick =>
      dsimp only [handle]
      rw [sessions_redrawChat]
      exact .still rfl (by simp) (by simp)
  | terminal event =>
      cases event with
      | press key =>
          dsimp only [handle, onTerminalEvent]
          split
          · next hmode => exact chatKey_turn hs replies hmode key
          · next hmode => exact replKey_turn hs replies hmode key
      | resize =>
          dsimp only [handle, onTerminalEvent]
          rw [sessions_redrawChat]
          exact .still rfl (by simp) (by simp)
      | other => exact .still rfl (by simp) (by simp)

end Keys

end App

end Ruxmsg.Cli

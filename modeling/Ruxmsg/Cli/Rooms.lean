import Ruxmsg.Cli.Turns

namespace Ruxmsg.Cli

def Call.handle? : Call → Option ConnId
  | .sendMessage id _ | .close id _ | .requestRekey id | .answerSas id _ => some id
  | _ => none

def Input.message? : Input → Option (ConnId × List UInt8)
  | .net (.conn id (.message content)) => some (id, content)
  | _ => none

def History.notices (self : History) (texts : List Text) : History :=
  texts.foldl (fun history text => history.push .system text) self

namespace Peer

def speaks (peer : Peer) (content : List UInt8) : Peer :=
  { peer with scrollback := peer.scrollback.push .local (ingest content) }

def hears (peer : Peer) (shown : Bool) (content : List UInt8) : Peer :=
  { peer with
    unread := if shown then peer.unread else peer.unread + 1
    scrollback := peer.scrollback.push .remote (ingest content) }

def seen (peer : Peer) : Peer := { peer with unread := 0 }

/-- A session whose conversation goes on by notices only. -/
structure Keeps (peer peer' : Peer) : Prop where
  id_eq : peer'.id = peer.id
  handle_eq : peer'.handle = peer.handle
  remote_eq : peer'.remote = peer.remote
  outbound_eq : peer'.outbound = peer.outbound
  unread_eq : peer'.unread = peer.unread
  scrollback : ∃ texts, peer'.scrollback = peer.scrollback.notices texts

variable {peer peer' peer'' : Peer}

theorem Keeps.refl (peer : Peer) : peer.Keeps peer := ⟨rfl, rfl, rfl, rfl, rfl, [], rfl⟩

theorem Keeps.trans (h : peer.Keeps peer') (h' : peer'.Keeps peer'') : peer.Keeps peer'' where
  id_eq := h'.id_eq.trans h.id_eq
  handle_eq := h'.handle_eq.trans h.handle_eq
  remote_eq := h'.remote_eq.trans h.remote_eq
  outbound_eq := h'.outbound_eq.trans h.outbound_eq
  unread_eq := h'.unread_eq.trans h.unread_eq
  scrollback := by
    obtain ⟨texts, htexts⟩ := h.scrollback
    obtain ⟨texts', htexts'⟩ := h'.scrollback
    refine ⟨texts ++ texts', ?_⟩
    rw [htexts', htexts, History.notices, History.notices, History.notices, List.foldl_append]

end Peer

structure PendingSas.Asks (pending pending' : PendingSas) : Prop where
  id_eq : pending'.id = pending.id
  words_eq : pending'.words = pending.words
  fingerprint_eq : pending'.fingerprint = pending.fingerprint

namespace App

/-- No conversation goes on but by notices, none begins, the view stays where it is,
no question is new, and the keys are bound as they were. -/
structure Still (old app : App) : Prop where
  peers : ∀ label (peer' : Peer), app.peers.lookup label = some peer' →
    ∃ peer : Peer, old.peers.lookup label = some peer ∧ peer.Keeps peer'
  views : app.views = old.views
  sas : ∀ pending' ∈ app.sas, ∃ pending ∈ old.sas, pending.Asks pending'
  keys : app.keys = old.keys

variable {self app app' : App} {replies : Replies} {label : Text} {peer : Peer} {f : Peer → Peer}

theorem sas_of_subset (h : app.sas ⊆ self.sas) :
    ∀ pending' ∈ app.sas, ∃ pending ∈ self.sas, pending.Asks pending' :=
  fun pending hpending => ⟨pending, h hpending, rfl, rfl, rfl⟩

theorem Still.of_eq (hpeers : app.peers = self.peers) (hmode : app.mode = self.mode) (hsas : app.sas ⊆ self.sas)
    (hkeys : app.keys = self.keys) : self.Still app where
  peers := by
    intro label peer h
    rw [hpeers] at h
    exact ⟨peer, h, .refl peer⟩
  views := by
    funext label
    rw [App.views, App.views, hmode]
  sas := sas_of_subset hsas
  keys := hkeys

theorem Still.refl (self : App) : self.Still self := .of_eq rfl rfl (List.Subset.refl _) rfl

theorem Still.trans (h : self.Still app) (h' : app.Still app') : self.Still app' where
  peers := by
    intro label peer'' hpeer''
    obtain ⟨peer', hpeer', hkeeps'⟩ := h'.peers label peer'' hpeer''
    obtain ⟨peer, hpeer, hkeeps⟩ := h.peers label peer' hpeer'
    exact ⟨peer, hpeer, hkeeps.trans hkeeps'⟩
  views := h'.views.trans h.views
  sas := by
    intro pending'' hpending''
    obtain ⟨pending', hpending', hasks'⟩ := h'.sas pending'' hpending''
    obtain ⟨pending, hpending, hasks⟩ := h.sas pending' hpending'
    exact ⟨pending, hpending, hasks'.id_eq.trans hasks.id_eq, hasks'.words_eq.trans hasks.words_eq,
      hasks'.fingerprint_eq.trans hasks.fingerprint_eq⟩
  keys := h'.keys.trans h.keys

@[simp] theorem mode_modify : (self.modify label f).mode = self.mode := by
  rw [modify]
  split <;> rfl

@[simp] theorem sas_modify : (self.modify label f).sas = self.sas := by
  rw [modify]
  split <;> rfl

@[simp] theorem keys_modify : (self.modify label f).keys = self.keys := by
  rw [modify]
  split <;> rfl

theorem views_modify : (self.modify label f).views = self.views := by
  funext l
  rw [views, views, mode_modify]

theorem lookup_modify (l : Text) : (self.modify label f).peers.lookup l =
    if l = label then (self.peers.lookup label).map f else self.peers.lookup l := by
  rw [modify]
  cases hpeer : self.peers.lookup label with
  | none =>
      dsimp only
      split_ifs with hl
      · rw [hl, hpeer]
        rfl
      · rfl
  | some peer =>
      dsimp only
      split_ifs with hl
      · rw [hl, AList.lookup_insert]
        rfl
      · exact AList.lookup_insert_ne hl

theorem still_modify (label : Text) (hf : ∀ peer : Peer, peer.Keeps (f peer)) : self.Still (self.modify label f) where
  peers := by
    intro l peer' hpeer'
    rw [lookup_modify] at hpeer'
    split_ifs at hpeer' with hl
    · obtain ⟨peer, hpeer, rfl⟩ := Option.map_eq_some_iff.1 hpeer'
      exact ⟨peer, by rwa [hl], hf peer⟩
    · exact ⟨peer', hpeer', .refl peer'⟩
  views := views_modify
  sas := sas_of_subset (by rw [sas_modify]; exact List.Subset.refl _)
  keys := keys_modify

theorem still_notice (label text : Text) : self.Still (self.notice label text) :=
  still_modify label fun _ => ⟨rfl, rfl, rfl, rfl, rfl, [text], rfl⟩

theorem still_forget (label : Text) : self.Still (self.forget label) := by
  rw [forget]
  split
  · refine ⟨?_, rfl, sas_of_subset (List.Subset.refl _), rfl⟩
    intro l peer hpeer
    refine ⟨peer, ?_, .refl peer⟩
    by_cases hl : l = label
    · rw [hl, AList.lookup_erase] at hpeer
      cases hpeer
    · rwa [AList.lookup_erase_ne hl] at hpeer
  · exact .refl self

theorem still_redrawChat (replies : Replies) : self.Still (self.redrawChat replies).2 := by
  rw [redrawChat]
  split
  · next view _ hmode _ =>
    refine ⟨fun _ peer h => ⟨peer, h, .refl peer⟩, ?_, sas_of_subset (List.Subset.refl _), rfl⟩
    funext label
    rw [views, views, hmode]
  · exact .refl self

theorem still_leaveChat : Still { self with mode := .repl } self.leaveChat := by
  have hleft : Still { self with mode := .repl } { self with terminal := false, mode := .repl } :=
    .of_eq rfl rfl (List.Subset.refl _) rfl
  rw [leaveChat.eq_def]
  split
  · exact hleft
  · dsimp only
    split
    · exact hleft.trans (still_forget _)
    · exact hleft

theorem still_editTyped (f : Text → Text) : self.Still (self.editTyped f) := by
  rw [editTyped]
  split
  · exact .refl self
  · next pending rest hsas =>
    refine ⟨fun _ peer h => ⟨peer, h, .refl peer⟩, rfl, ?_, rfl⟩
    intro pending' hpending'
    rw [hsas]
    rcases List.mem_cons.1 hpending' with rfl | hpending'
    · exact ⟨pending, List.mem_cons_self, rfl, rfl, rfl⟩
    · exact ⟨pending', List.mem_cons_of_mem _ hpending', rfl, rfl, rfl⟩

inductive Does (self : App) (replies : Replies) (input : Input) : App → List Call → Prop
  | stays {app : App} {calls : List Call} (still : self.Still app)
      (deaf : ∀ id content, input.message? = some (id, content) → self.byId.lookup id = none)
      (free : ∀ call ∈ calls, call.handle? = none ∧ call ≠ .newNet) : Does self replies input app calls
  | asks {app : App} {label : Text} {peer : Peer} {call : Call} (still : self.Still app)
      (deaf : input.message? = none) (known : self.peers.lookup label = some peer)
      (handle : call.handle? = some peer.handle.id)
      (silent : ∀ id content, call = .sendMessage id content → replies.handle ≠ .ok ()) :
      Does self replies input app [call]
  | speaks {app : App} {label : Text} {peer : Peer} {content : List UInt8} (deaf : input.message? = none)
      (known : self.peers.lookup label = some peer) (connected : peer.status = .connected)
      (taken : replies.handle = .ok ()) (still : (self.modify label (·.speaks content)).Still app) :
      Does self replies input app [.sendMessage peer.handle.id content]
  | hears {app : App} {id : ConnId} {label : Text} {content : List UInt8}
      (input_eq : input.message? = some (id, content)) (place : self.byId.lookup id = some label)
      (still : (self.modify label (·.hears (self.views label) content)).Still app) : Does self replies input app []
  | opens {app : App} {handle : ConnectionHandle} {remote : Text} {outbound : Bool}
      (input_eq : input = .net (.opened handle remote outbound))
      (still : Still { self with
        peers := self.peers.insert (peerLabel (self.nextLabel + 1)) (.fresh handle remote outbound) } app) :
      Does self replies input app []
  | enters {app : App} {view : ChatView} {peer : Peer} (deaf : input.message? = none)
      (known : self.peers.lookup view.label = some peer) (connected : peer.status = .connected)
      (still : Still { self.modify view.label Peer.seen with mode := .chat view } app) : Does self replies input app []
  | questions {app : App} {id : ConnId} {words : List String} {peer : PeerIdentity} {pending : PendingSas}
      (input_eq : input = .net (.conn id (.sasRequired words peer))) (id_eq : pending.id = id)
      (words_eq : pending.words = words) (fingerprint_eq : pending.fingerprint = Cli.fingerprint peer)
      (still : Still { self with sas := self.sas ++ [pending] } app) : Does self replies input app []
  | leaves {app : App} (deaf : input.message? = none) (still : Still { self with mode := .repl } app) :
      Does self replies input app []
  | renews {app : App} (deaf : input.message? = none) (empty : self.peers.entries = []) (still : self.Still app) :
      Does self replies input app [.newNet]

variable {input : Input} {calls : List Call}

theorem Does.idle (still : self.Still app) (deaf : input.message? = none) : self.Does replies input app [] := by
  refine .stays still ?_ (by simp)
  intro id content h
  cases deaf.symm.trans h

theorem Does.trans (h : self.Does replies input app calls) (hstill : app.Still app') :
    self.Does replies input app' calls := by
  cases h with
  | stays still deaf free => exact .stays (still.trans hstill) deaf free
  | asks still deaf known handle silent => exact .asks (still.trans hstill) deaf known handle silent
  | speaks deaf known connected taken still => exact .speaks deaf known connected taken (still.trans hstill)
  | hears input_eq place still => exact .hears input_eq place (still.trans hstill)
  | opens input_eq still => exact .opens input_eq (still.trans hstill)
  | enters deaf known connected still => exact .enters deaf known connected (still.trans hstill)
  | questions input_eq id_eq words_eq fingerprint_eq still =>
      exact .questions input_eq id_eq words_eq fingerprint_eq (still.trans hstill)
  | leaves deaf still => exact .leaves deaf (still.trans hstill)
  | renews deaf empty still => exact .renews deaf empty (still.trans hstill)

/-- A client that differs in nothing that matters to the conversations. -/
structure Alike (app app' : App) : Prop where
  peers : app'.peers = app.peers
  byId : app'.byId = app.byId
  nextLabel : app'.nextLabel = app.nextLabel
  sas : app'.sas = app.sas
  views : app'.views = app.views
  keys : app'.keys = app.keys

theorem Still.alike (h : app.Still app') (halike : self.Alike app) : self.Still app' where
  peers := by
    intro label peer' hpeer'
    obtain ⟨peer, hpeer, hkeeps⟩ := h.peers label peer' hpeer'
    exact ⟨peer, by rwa [halike.peers] at hpeer, hkeeps⟩
  views := h.views.trans halike.views
  sas := by
    rw [← halike.sas]
    exact h.sas
  keys := h.keys.trans halike.keys

theorem Alike.modify (h : self.Alike app) : (self.modify label f).Alike (app.modify label f) := by
  unfold App.modify
  rw [h.peers]
  split
  · exact ⟨rfl, h.byId, h.nextLabel, h.sas, h.views, h.keys⟩
  · exact h

theorem Does.alike (h : app.Does replies input app' calls) (halike : self.Alike app) :
    self.Does replies input app' calls := by
  cases h with
  | stays still deaf free => exact .stays (still.alike halike) (by rwa [← halike.byId]) free
  | asks still deaf known handle silent =>
      exact .asks (still.alike halike) deaf (by rwa [← halike.peers]) handle silent
  | speaks deaf known connected taken still =>
      exact .speaks deaf (by rwa [← halike.peers]) connected taken (still.alike halike.modify)
  | hears input_eq place still =>
      rw [halike.views] at still
      exact .hears input_eq (by rwa [← halike.byId]) (still.alike halike.modify)
  | opens input_eq still =>
      refine .opens input_eq (still.alike ⟨?_, halike.byId, halike.nextLabel, halike.sas, halike.views, halike.keys⟩)
      rw [halike.peers, halike.nextLabel]
  | @enters view peer deaf known connected still =>
      have hmodify : (self.modify view.label Peer.seen).Alike (app.modify view.label Peer.seen) := halike.modify
      exact .enters deaf (by rwa [← halike.peers]) connected
        (still.alike ⟨hmodify.peers, hmodify.byId, hmodify.nextLabel, hmodify.sas, rfl, hmodify.keys⟩)
  | questions input_eq id_eq words_eq fingerprint_eq still =>
      refine .questions input_eq id_eq words_eq fingerprint_eq
        (still.alike ⟨halike.peers, halike.byId, halike.nextLabel, ?_, halike.views, halike.keys⟩)
      rw [halike.sas]
  | leaves deaf still =>
      exact .leaves deaf (still.alike ⟨halike.peers, halike.byId, halike.nextLabel, halike.sas, rfl, halike.keys⟩)
  | renews deaf empty still => exact .renews deaf (by rwa [← halike.peers]) (still.alike halike)

theorem Does.keys_eq (h : self.Does replies input app calls) : app.keys = self.keys := by
  cases h with
  | stays still | asks still | opens _ still | questions _ _ _ _ still | leaves _ still | renews _ _ still =>
      exact still.keys
  | speaks _ _ _ _ still | hears _ _ still | enters _ _ _ still => exact still.keys.trans keys_modify

section Net

theorem onSasRequired_does (id : ConnId) (label : Text) (words : List String) (peer : PeerIdentity) :
    self.Does replies (.net (.conn id (.sasRequired words peer)))
      (self.onSasRequired replies id label words peer).1 (self.onSasRequired replies id label words peer).2 := by
  have hstill : self.Still (self.modify label fun known => { known with fingerprint := some (Cli.fingerprint peer) }) :=
    still_modify label fun _ => ⟨rfl, rfl, rfl, rfl, rfl, [], rfl⟩
  have hsas : (self.modify label fun known => { known with fingerprint := some (Cli.fingerprint peer) }).sas = self.sas :=
    sas_modify
  rw [onSasRequired]
  dsimp only
  generalize self.modify label _ = modified at hstill hsas ⊢
  split
  · next known hknown =>
    split at hknown
    · exact .asks (hstill.trans (still_notice ..)) rfl hknown rfl (by rintro _ _ ⟨⟩)
    · cases hknown
  · have hadded (pending : PendingSas) : Still { self with sas := self.sas ++ [pending] }
        { modified with touched := true, sas := modified.sas ++ [pending] } := by
      refine ⟨hstill.peers, hstill.views, sas_of_subset ?_, hstill.keys⟩
      rw [hsas]
      exact List.Subset.refl _
    refine .questions rfl ?_ ?_ ?_ (hadded _) <;> rfl

theorem onClosed_still (id : ConnId) (label : Text) (cause : CloseCause) :
    self.Still (self.onClosed id label cause) := by
  have hfirst : self.Still { self with sas := self.sas.filter fun pending => pending.id ≠ id } :=
    .of_eq rfl rfl List.filter_sublist.subset rfl
  have hsecond := hfirst.trans (still_modify label (f := fun peer : Peer =>
    { peer with
      status := .closed
      rekeying := false
      closeNote := some (causeText cause)
      scrollback := peer.scrollback.push .system (causeText cause) })
    fun _ => ⟨rfl, rfl, rfl, rfl, rfl, [causeText cause], rfl⟩)
  rw [onClosed.eq_def]
  dsimp only
  generalize modify _ label _ = modified at hsecond ⊢
  have hstill (target : Option Text) : self.Still { modified with defaultTarget := target } :=
    hsecond.trans (.of_eq rfl rfl (List.Subset.refl _) rfl)
  split_ifs
  · exact hstill _
  · exact (hstill _).trans (still_forget label)
  · exact hstill _
  · exact (hstill _).trans (still_forget label)

theorem onDataRejected_still (replies : Replies) (label : Text) : self.Still (self.onDataRejected replies label) := by
  apply still_modify label
  intro peer
  split
  · exact .refl peer
  · exact ⟨rfl, rfl, rfl, rfl, rfl, ["an invalid or unauthenticated message was dropped".toList], rfl⟩

theorem onMessage_still (label : Text) (content : List UInt8) :
    (self.modify label (·.hears (self.views label) content)).Still (self.onMessage label content) := by
  have halike (app : App) (h : modify { self with touched := true } label (·.hears (self.views label) content) = app) :
      (self.modify label (·.hears (self.views label) content)).Alike app := by
    rw [← h]
    exact Alike.modify ⟨rfl, rfl, rfl, rfl, rfl, rfl⟩
  rw [onMessage.eq_def]
  dsimp only
  generalize hmodified : modify { self with touched := true } label _ = modified
  refine Still.alike ?_ (halike modified hmodified)
  split
  · next view hmode =>
    split
    · refine ⟨fun _ peer h => ⟨peer, h, .refl peer⟩, ?_, sas_of_subset (List.Subset.refl _), rfl⟩
      funext l
      rw [App.views, App.views, hmode]
    · exact .refl modified
  · exact .refl modified

theorem onConnEvent_does (replies : Replies) (id : ConnId) (event : ConnEvent) :
    self.Does replies (.net (.conn id event)) (self.onConnEvent replies id event).1
      (self.onConnEvent replies id event).2 := by
  rw [onConnEvent]
  cases hplace : self.byId.lookup id with
  | none =>
      refine .stays (.refl self) ?_ (by simp)
      rintro other content hmessage
      cases event <;> cases hmessage
      exact hplace
  | some label =>
      cases event with
      | sasRequired words peer => exact onSasRequired_does id label words peer
      | established peer =>
          refine .idle (still_modify label ?_) rfl
          exact fun _ => ⟨rfl, rfl, rfl, rfl, rfl, ["secure session established".toList], rfl⟩
      | message content => exact .hears rfl hplace (onMessage_still label content)
      | rekeyStarted | rekeyCompleted =>
          exact .idle (still_modify label fun _ => ⟨rfl, rfl, rfl, rfl, rfl, [], rfl⟩) rfl
      | rekeyFailed failure =>
          refine .idle ((still_modify label ?_).trans (still_notice label _)) rfl
          exact fun _ => ⟨rfl, rfl, rfl, rfl, rfl, [], rfl⟩
      | dataRejected => exact .idle (onDataRejected_still replies label) rfl
      | sendRejected reason => cases reason <;> exact .idle (still_notice label _) rfl
      | closed cause => exact .idle (onClosed_still id label cause) rfl

variable (self) in
theorem onOpened_does (replies : Replies) (handle : ConnectionHandle) (remote : Text) (outbound : Bool) :
    self.Does replies (.net (.opened handle remote outbound)) (self.onOpened handle remote outbound).2 [] := by
  rcases self.onOpened_cases handle remote outbound with ⟨hopened, -⟩ | hopened
  · rw [hopened]
    exact .idle (.refl self) rfl
  · rw [hopened]
    exact .opens rfl (.of_eq rfl rfl (List.Subset.refl _) rfl)

theorem onNetEvent_does (replies : Replies) (event : NetEvent) :
    self.Does replies (.net event) (self.onNetEvent replies event).2.1 (self.onNetEvent replies event).2.2 := by
  cases event with
  | opened handle remote outbound =>
      have hopened := self.onOpened_does replies handle remote outbound
      dsimp only [onNetEvent]
      split
      · next h =>
        rw [h] at hopened
        exact hopened
      · next h =>
        rw [h] at hopened
        exact hopened.trans (still_redrawChat replies)
  | dialFailed addr error => exact .idle (still_redrawChat replies) rfl
  | listenerStopped addr error =>
      have hstopped : self.Still { self with listener := none } := .of_eq rfl rfl (List.Subset.refl _) rfl
      exact .idle (hstopped.trans (still_redrawChat replies)) rfl
  | conn id event => exact (onConnEvent_does replies id event).trans (still_redrawChat replies)

end Net

section Keys

variable (hdeaf : input.message? = none)

include hdeaf

theorem answerSas_does (replies : Replies) (approved : Bool) :
    self.Does replies input (self.answerSas approved).1 (self.answerSas approved).2 := by
  rw [answerSas]
  split
  · exact .idle (.refl self) hdeaf
  · next pending sas hsas =>
    have hstill : self.Still { self with sas } := .of_eq rfl rfl (by rw [hsas]; exact List.subset_cons_self ..) rfl
    split
    · next peer hpeer => exact .asks hstill hdeaf hpeer rfl (by rintro _ _ ⟨⟩)
    · exact .idle hstill hdeaf

theorem sasKey_does (replies : Replies) (key : KeyEvent) :
    self.Does replies input (self.sasKey key).1 (self.sasKey key).2 := by
  rw [sasKey]
  split
  · exact answerSas_does hdeaf replies _
  · exact answerSas_does hdeaf replies _
  · exact .idle (still_editTyped _) hdeaf
  · split
    · exact .idle (still_editTyped _) hdeaf
    · exact .idle (.refl self) hdeaf

theorem chatSasKey_does (replies : Replies) (key : KeyEvent) :
    self.Does replies input (self.chatSasKey key).1 (self.chatSasKey key).2 := by
  rw [chatSasKey]
  split
  · exact answerSas_does hdeaf replies _
  · exact sasKey_does hdeaf replies key

theorem sendText_does (replies : Replies) (label text : Text) :
    self.Does replies input (self.sendText replies label text).2.1 (self.sendText replies label text).2.2 := by
  rw [sendText]
  split
  · exact .idle (.refl self) hdeaf
  · split
    · exact .idle (.refl self) hdeaf
    · next peer hpeer =>
      obtain ⟨hlookup, hstatus⟩ := connectedPeer_ok hpeer
      dsimp only
      split
      · next herror => exact .asks (.refl self) hdeaf hlookup rfl (by simp [herror])
      · next herror => exact .asks (.refl self) hdeaf hlookup rfl (by simp [herror])
      · next hok => exact .speaks hdeaf hlookup hstatus hok (.of_eq rfl rfl (List.Subset.refl _) rfl)

theorem requestRekey_does (replies : Replies) (label : Text) :
    self.Does replies input self (self.requestRekey replies label).2 := by
  rw [requestRekey]
  split
  · exact .idle (.refl self) hdeaf
  · next hpeer => exact .asks (.refl self) hdeaf (connectedPeer_ok hpeer).1 rfl (by rintro _ _ ⟨⟩)

theorem closeSession_does (replies : Replies) (label : Text) :
    self.Does replies input self (self.closeSession label) := by
  rw [closeSession]
  split
  · exact .idle (.refl self) hdeaf
  · next hpeer => exact .asks (.refl self) hdeaf (peer_ok hpeer) rfl (by rintro _ _ ⟨⟩)

theorem tryEnterChat_does (replies : Replies) (label : Text) :
    self.Does replies input (self.tryEnterChat replies label) [] := by
  rw [tryEnterChat]
  split
  · next peer hpeer _ =>
    obtain ⟨hlookup, hstatus⟩ := connectedPeer_ok hpeer
    refine Does.trans ?_ (still_redrawChat replies)
    refine @Does.enters _ _ _ _ { label, input := [], scroll := 0, maxScroll := 0 } _ hdeaf hlookup hstatus ?_
    have halike : (self.modify label Peer.seen).Alike (modify { self with
        terminal := true, defaultTarget := some label, touched := true } label Peer.seen) :=
      Alike.modify ⟨rfl, rfl, rfl, rfl, rfl, rfl⟩
    exact .of_eq halike.peers rfl (halike.sas ▸ List.Subset.refl _) halike.keys
  · exact .idle (.refl self) hdeaf

theorem switchProfile_does (replies : Replies) (name : Text) (create : Bool) :
    self.Does replies input (self.switchProfile replies name create).1 (self.switchProfile replies name create).2 := by
  rw [switchProfile]
  split
  · next hidle _ =>
    rw [ensureIdle] at hidle
    split at hidle
    · next hempty => exact .renews hdeaf hempty.1 (.of_eq rfl rfl (List.Subset.refl _) rfl)
    · cases hidle
  · exact .idle (.refl self) hdeaf

theorem dispatch_does (replies : Replies) (line : Text) :
    self.Does replies input (self.dispatch replies line).1 (self.dispatch replies line).2 := by
  have hquiet {app : App} {calls : List Call} (hpeers : app.peers = self.peers) (hmode : app.mode = self.mode)
      (hsas : app.sas = self.sas) (hkeys : app.keys = self.keys)
      (hcalls : ∀ call ∈ calls, call.handle? = none ∧ call ≠ .newNet) : self.Does replies input app calls := by
    refine .stays (.of_eq hpeers hmode (hsas ▸ List.Subset.refl _) hkeys) ?_ hcalls
    intro id content h
    cases hdeaf.symm.trans h
  rw [dispatch]
  split
  · exact hquiet rfl rfl rfl rfl (by simp)
  · next command _ =>
    cases command with
    | profile command =>
        cases command with
        | init name | use name => exact switchProfile_does hdeaf replies name _
        | list => exact hquiet rfl rfl rfl rfl (by simp)
    | start addr =>
        dsimp only
        rw [start]
        split
        · exact hquiet rfl rfl rfl rfl (by simp)
        · split <;> exact hquiet rfl rfl rfl rfl (by simp [Call.handle?])
    | stop =>
        dsimp only
        rw [stop]
        split <;> exact hquiet rfl rfl rfl rfl (by simp [Call.handle?])
    | connect addr =>
        dsimp only
        rw [dial]
        split <;> exact hquiet rfl rfl rfl rfl (by simp [Call.handle?])
    | use label =>
        dsimp only
        rw [useTarget]
        split <;> exact hquiet rfl rfl rfl rfl (by simp)
    | message label text => exact sendText_does hdeaf replies label text
    | close label => exact closeSession_does hdeaf replies label
    | rekey label => exact requestRekey_does hdeaf replies label
    | chat label =>
        dsimp only
        split
        · exact tryEnterChat_does hdeaf replies _
        · exact hquiet rfl rfl rfl rfl (by simp)
    | peers | fingerprint | session | tailscale | help | quit => exact hquiet rfl rfl rfl rfl (by simp)

theorem chatEnter_does (replies : Replies) {view : ChatView} (hmode : self.mode = .chat view) :
    self.Does replies input (self.chatEnter replies view).1 (self.chatEnter replies view).2 := by
  have hsent : self.Alike { self with mode := .chat { view with input := [], scroll := 0 } } := by
    refine ⟨rfl, rfl, rfl, rfl, ?_, rfl⟩
    funext label
    rw [views, views, hmode]
  rw [chatEnter.eq_def]
  dsimp only
  generalize ({ self with mode := .chat _ } : App) = sent at hsent ⊢
  split
  · exact Does.alike (.idle (.refl sent) hdeaf) hsent
  · have hdoes : self.Does replies input (sent.sendText replies view.label view.input.trim).2.1
        (sent.sendText replies view.label view.input.trim).2.2 := (sendText_does hdeaf replies _ _).alike hsent
    split
    · next h =>
      rw [h] at hdoes
      exact hdoes
    · next h =>
      rw [h] at hdoes
      exact hdoes.trans (still_notice ..)

theorem chatRekey_does (replies : Replies) (label : Text) :
    self.Does replies input (self.chatRekey replies label).1 (self.chatRekey replies label).2 := by
  have hdoes : self.Does replies input self (self.requestRekey replies label).2 := requestRekey_does hdeaf replies label
  rw [chatRekey]
  split
  · next h =>
    rw [h] at hdoes
    exact hdoes
  · next h =>
    rw [h] at hdoes
    exact hdoes.trans (still_notice ..)

theorem chatKey_does (replies : Replies) {view : ChatView} (hmode : self.mode = .chat view) (key : KeyEvent) :
    self.Does replies input (self.chatKey replies view key).2.1 (self.chatKey replies view key).2.2 := by
  rw [chatKey]
  split
  · exact (chatSasKey_does hdeaf replies key).trans (still_redrawChat replies)
  · split
    · exact .leaves hdeaf still_leaveChat
    · refine Does.trans ?_ (still_redrawChat replies)
      split
      · exact chatEnter_does hdeaf replies hmode
      · split
        · exact chatRekey_does hdeaf replies view.label
        · have hview : (viewKey self.keys view key).label = view.label := by
            rw [viewKey, scrollKey]
            repeat' split
            all_goals rfl
          refine .idle ⟨fun _ peer h => ⟨peer, h, .refl peer⟩, ?_, sas_of_subset (List.Subset.refl _), rfl⟩ hdeaf
          funext label
          rw [views, views, hmode]
          dsimp only
          rw [hview]

theorem replKey_does (replies : Replies) (key : KeyEvent) :
    self.Does replies input (self.replKey replies key).2.1 (self.replKey replies key).2.2 := by
  have hquiet {app : App} (hpeers : app.peers = self.peers) (hmode : app.mode = self.mode)
      (hsas : app.sas = self.sas) (hkeys : app.keys = self.keys) : self.Does replies input app [] :=
    .idle (.of_eq hpeers hmode (hsas ▸ List.Subset.refl _) hkeys) hdeaf
  rw [replKey]
  dsimp only
  split
  · exact hquiet rfl rfl rfl rfl
  · split
    · exact sasKey_does hdeaf replies key
    · split
      · split
        · exact hquiet rfl rfl rfl rfl
        · split
          · exact hquiet rfl rfl rfl rfl
          · have halike : self.Alike { self with input := [] } := ⟨rfl, rfl, rfl, rfl, rfl, rfl⟩
            exact (dispatch_does hdeaf replies _).alike halike
      · exact hquiet rfl rfl rfl rfl
      · split
        · split <;> exact hquiet rfl rfl rfl rfl
        · exact hquiet rfl rfl rfl rfl

omit hdeaf in
theorem handle_does (self : App) (replies : Replies) (input : Input) :
    self.Does replies input (self.handle replies input).2.1 (self.handle replies input).2.2 := by
  cases input with
  | net event => exact onNetEvent_does replies event
  | tick => exact .idle (still_redrawChat replies) rfl
  | terminal event =>
      cases event with
      | press key =>
          dsimp only [handle, onTerminalEvent]
          split
          · next hmode => exact chatKey_does rfl replies hmode key
          · exact replKey_does rfl replies key
      | resize => exact .idle (still_redrawChat replies) rfl
      | other => exact .idle (.refl self) rfl

end Keys

end App

end Ruxmsg.Cli

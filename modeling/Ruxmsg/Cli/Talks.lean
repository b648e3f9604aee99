import Ruxmsg.Cli.Approvals
import Ruxmsg.Cli.Rooms

namespace Ruxmsg.Cli

open Library.Machine Library.Index

section Shown

namespace History

variable {self : History} {shown : List Entry}

theorem push_keeps (h : self.scrollback.Keeps shown) (author : Author) (text : Text) :
    ∃ entry, entry.author = author ∧ Scrollback.Shows text entry.text ∧
      (self.push author text).scrollback.Keeps (shown ++ [entry]) := by
  obtain ⟨entry, scrollback, hpush, hauthor, hshows, hkeeps⟩ := h.push author text
  refine ⟨entry, hauthor, hshows, ?_⟩
  simp only [History.push, hpush, Option.get_some]
  exact hkeeps

/-- What one of the two parties to a conversation contributed, as it is shown. -/
def Fits (line : Author × Text) (entry : Entry) : Prop :=
  entry.author = line.1 ∧ Scrollback.Shows line.2 entry.text

/-- A scrollback holds some lines of a conversation, with notices between them. -/
def Talked (lines : List (Author × Text)) (history : History) : Prop :=
  ∃ shown, history.scrollback.Keeps shown ∧
    List.Forall₂ Fits lines (shown.filter fun entry => entry.author ≠ .system)

variable {lines : List (Author × Text)}

theorem Talked.empty : Talked [] .empty := ⟨[], Scrollback.keeps_empty, .nil⟩

theorem Talked.push (h : self.Talked lines) {author : Author} (hauthor : author ≠ .system) (text : Text) :
    (self.push author text).Talked (lines ++ [(author, text)]) := by
  obtain ⟨shown, hkeeps, hlines⟩ := h
  obtain ⟨entry, hentry, hshows, hkeeps'⟩ := push_keeps hkeeps author text
  refine ⟨shown ++ [entry], hkeeps', ?_⟩
  rw [List.filter_append, List.filter_cons_of_pos (by simpa [hentry] using hauthor)]
  exact List.rel_append hlines (.cons ⟨hentry, hshows⟩ .nil)

theorem Talked.notices (h : self.Talked lines) (texts : List Text) : (self.notices texts).Talked lines := by
  induction texts generalizing self with
  | nil => exact h
  | cons text texts ih =>
      apply ih
      obtain ⟨shown, hkeeps, hlines⟩ := h
      obtain ⟨entry, hentry, -, hkeeps'⟩ := push_keeps hkeeps .system text
      refine ⟨shown ++ [entry], hkeeps', ?_⟩
      rwa [List.filter_append, List.filter_cons_of_neg (by simp [hentry]), List.filter_nil, List.append_nil]

end History

end Shown

namespace Turned

def heard (id : ConnId) (turned : Turned) : List (List UInt8) :=
  match turned.input.2.message? with
  | some (other, content) => if other = id then [content] else []
  | none => []

def sent (id : ConnId) (turned : Turned) : List (List UInt8) :=
  if turned.input.1.handle = .ok () then
    turned.out.2.filterMap fun
      | .sendMessage other content => if other = id then some content else none
      | _ => none
  else []

def lines (id : ConnId) (turned : Turned) : List (Author × Text) :=
  (turned.heard id).map (fun content => (Author.remote, ingest content)) ++
    (turned.sent id).map fun content => (Author.local, ingest content)

def arrivals (label : Text) (turned : Turned) : Nat :=
  match turned.input.2.message? with
  | some (id, _) => if turned.pre.byId.lookup id = some label then 1 else 0
  | none => 0

end Turned

/-- The conversation on a connection, as the client took part in it. -/
def conversation (id : ConnId) (past : List Turned) : List (Author × Text) := past.flatMap (Turned.lines id)

/-- How many messages came for a session since its chat was last open. -/
def unseen (label : Text) (past : List Turned) : Nat :=
  past.foldl (fun count turned => if turned.post.views label then 0 else count + turned.arrivals label) 0

def PendingSas.Asked (events : List NetEvent) (pending : PendingSas) : Prop :=
  ∃ peer, .conn pending.id (.sasRequired pending.words peer) ∈ events ∧ pending.fingerprint = Cli.fingerprint peer

structure App.Rooms (past : List Turned) (app : App) : Prop where
  talks : ∀ label (peer : Peer), app.peers.lookup label = some peer → peer.scrollback.Talked (conversation peer.id past)
  unread : ∀ label (peer : Peer), app.peers.lookup label = some peer → peer.unread = unseen label past
  viewed : ∀ label, app.views label = true → unseen label past = 0
  fresh : ∀ n, app.nextLabel < n → unseen (peerLabel n) past = 0
  silent : ∀ id, (∀ event ∈ events (past.map Record.input), ¬ event.opens id) → conversation id past = []
  asked : ∀ pending ∈ app.sas, pending.Asked (events (past.map Record.input))

theorem Input.message?_eq_some {input : Input} {id : ConnId} {content : List UInt8}
    (h : input.message? = some (id, content)) : input = .net (.conn id (.message content)) := by
  rw [Input.message?.eq_def] at h
  split at h
  · cases h
    rfl
  · cases h

section Past

variable {id : ConnId} {label : Text} {past : List Turned} {turned : Turned}

theorem conversation_snoc : conversation id (past ++ [turned]) = conversation id past ++ turned.lines id := by
  rw [conversation, List.flatMap_append, List.flatMap_singleton]
  rfl

theorem unseen_snoc : unseen label (past ++ [turned]) =
    if turned.post.views label then 0 else unseen label past + turned.arrivals label := by
  rw [unseen, List.foldl_append]
  rfl

theorem Turned.lines_of_silent (hheard : ∀ content, turned.input.2.message? ≠ some (id, content))
    (hsent : turned.input.1.handle = .ok () → ∀ content, .sendMessage id content ∉ turned.out.2) :
    turned.lines id = [] := by
  have hfirst : turned.heard id = [] := by
    rw [Turned.heard]
    split
    · next other content hmessage =>
      rw [if_neg]
      rintro rfl
      exact hheard content hmessage
    · rfl
  have hsecond : turned.sent id = [] := by
    rw [Turned.sent]
    split_ifs with hok
    · rw [List.filterMap_eq_nil_iff]
      intro call hcall
      split
      · next other content =>
        rw [if_neg]
        rintro rfl
        exact hsent hok content hcall
      · rfl
    · rfl
  rw [Turned.lines, hfirst, hsecond]
  rfl

theorem Turned.arrivals_of_deaf
    (h : ∀ id content, turned.input.2.message? = some (id, content) → turned.pre.byId.lookup id ≠ some label) :
    turned.arrivals label = 0 := by
  rw [Turned.arrivals]
  split
  · next id content hmessage => exact if_neg (h id content hmessage)
  · rfl

end Past

structure Peer.Goes (turned : Turned) (label : Text) (peer peer' : Peer) : Prop where
  id_eq : peer'.id = peer.id
  talks : ∀ lines, peer.scrollback.Talked lines → peer'.scrollback.Talked (lines ++ turned.lines peer.id)
  unread_eq : (turned.pre.views label = true → peer.unread = 0) →
    peer'.unread = if turned.post.views label then 0 else peer.unread + turned.arrivals label

section Step

variable {self app : App} {replies : Replies} {input : Input} {result : Except Fault Unit} {calls : List Call}
  {label l : Text} {peer peer' peer'' : Peer} {turned : Turned}

theorem Peer.Keeps.goes (h : peer.Keeps peer') (hlines : turned.lines peer.id = [])
    (harrivals : turned.arrivals label = 0) (hviews : turned.post.views label = turned.pre.views label) :
    peer.Goes turned label peer' where
  id_eq := h.id_eq
  talks := by
    intro lines hlines'
    obtain ⟨texts, htexts⟩ := h.scrollback
    rw [hlines, List.append_nil, htexts]
    exact hlines'.notices texts
  unread_eq := by
    intro hseen
    rw [h.unread_eq, hviews, harrivals, Nat.add_zero]
    split_ifs with hview
    · exact hseen hview
    · rfl

theorem Peer.Goes.trans (h : peer.Goes turned label peer') (hkeeps : peer'.Keeps peer'') :
    peer.Goes turned label peer'' where
  id_eq := hkeeps.id_eq.trans h.id_eq
  talks := by
    intro lines hlines
    obtain ⟨texts, htexts⟩ := hkeeps.scrollback
    rw [htexts]
    exact (h.talks lines hlines).notices texts
  unread_eq := fun hseen => hkeeps.unread_eq.trans (h.unread_eq hseen)

/-- A session after a turn is one that was there before, or a new one. -/
theorem App.Does.goes (h : self.Does replies input app calls) (hs : self.sessions.Consistent)
    (hturned : turned = { pre := self, input := (replies, input), out := (result, calls), post := app })
    (hpeer' : app.peers.lookup label = some peer') :
    (∃ peer : Peer, self.peers.lookup label = some peer ∧ peer.Goes turned label peer') ∨
      ∃ handle remote outbound, input = .net (.opened handle remote outbound) ∧
        label = peerLabel (self.nextLabel + 1) ∧ (Peer.fresh handle remote outbound).Keeps peer' ∧
        turned.lines handle.id = [] ∧ turned.arrivals label = 0 := by
  have hplace {peer : Peer} {l : Text} (hpeer : self.peers.lookup l = some peer) :
      self.byId.lookup peer.id = some l := hs.indexed.place (sessions_peers hpeer)
  have hhandle {peer : Peer} {l : Text} (hpeer : self.peers.lookup l = some peer) : peer.handle.id = peer.id :=
    (hs.fits l _ (sessions_peers hpeer)).handle_id
  have hquiet {peer : Peer} (hviews : app.views = self.views) (hdeaf : input.message? = none)
      (hkeeps : peer.Keeps peer') (hcalls : replies.handle = .ok () → ∀ content, .sendMessage peer.id content ∉ calls) :
      peer.Goes turned label peer' := by
    subst hturned
    refine hkeeps.goes (Turned.lines_of_silent ?_ hcalls) (Turned.arrivals_of_deaf ?_) (congrFun hviews label)
    · intro content hmessage
      cases hdeaf.symm.trans hmessage
    · intro id content hmessage
      cases hdeaf.symm.trans hmessage
  cases h with
  | stays still deaf free =>
      obtain ⟨peer, hpeer, hkeeps⟩ := still.peers label peer' hpeer'
      refine .inl ⟨peer, hpeer, ?_⟩
      subst hturned
      refine hkeeps.goes (Turned.lines_of_silent ?_ ?_) (Turned.arrivals_of_deaf ?_) (congrFun still.views label)
      · intro content hmessage
        cases (deaf _ _ hmessage).symm.trans (hplace hpeer)
      · intro _ content hcall
        cases (free _ hcall).1
      · intro id content hmessage hlabel
        cases (deaf _ _ hmessage).symm.trans hlabel
  | asks still deaf known handle silent =>
      obtain ⟨peer, hpeer, hkeeps⟩ := still.peers label peer' hpeer'
      refine .inl ⟨peer, hpeer, hquiet still.views deaf hkeeps ?_⟩
      intro hok content hcall
      exact silent _ _ (List.mem_singleton.1 hcall).symm hok
  | @speaks l speaker content deaf known _ taken still =>
      obtain ⟨middle, hmiddle, hkeeps⟩ := still.peers label peer' hpeer'
      have hviews : app.views = self.views := still.views.trans views_modify
      rw [lookup_modify] at hmiddle
      split_ifs at hmiddle with hl
      · obtain rfl : speaker.speaks content = middle := by simpa [known] using hmiddle
        have hsaid : turned.lines speaker.id = [(Author.local, ingest content)] := by
          simp [hturned, Turned.lines, Turned.heard, Turned.sent, deaf, taken, hhandle known]
        have hnone : turned.arrivals label = 0 := by simp [hturned, Turned.arrivals, deaf]
        have hgoes : speaker.Goes turned label (speaker.speaks content) := by
          refine ⟨rfl, ?_, ?_⟩
          · intro lines hlines
            rw [hsaid]
            exact hlines.push (by decide) _
          · intro hseen
            rw [hnone]
            subst hturned
            dsimp only at hseen ⊢
            rw [hviews]
            split_ifs with hview
            · exact hseen hview
            · rfl
        exact .inl ⟨speaker, by rwa [hl], hgoes.trans hkeeps⟩
      · refine .inl ⟨middle, hmiddle, hquiet hviews deaf hkeeps ?_⟩
        intro _ other hcall
        obtain ⟨hid, -⟩ := Call.sendMessage.inj (List.mem_singleton.1 hcall)
        apply hl
        apply Option.some.inj
        rw [← hplace hmiddle, ← hplace known, hid, hhandle known]
  | @hears id l content input_eq place still =>
      obtain ⟨middle, hmiddle, hkeeps⟩ := still.peers label peer' hpeer'
      have hviews : app.views = self.views := still.views.trans views_modify
      obtain ⟨session, hsession, hid⟩ := hs.indexed.entry place
      obtain ⟨hearer, hhearer, rfl⟩ := lookup_of_sessions hsession
      obtain rfl : hearer.id = id := hid
      rw [lookup_modify] at hmiddle
      split_ifs at hmiddle with hl
      · obtain rfl : hearer.hears (self.views l) content = middle := by simpa [hhearer] using hmiddle
        have hheard : turned.lines hearer.id = [(Author.remote, ingest content)] := by
          simp [hturned, Turned.lines, Turned.heard, Turned.sent, input_eq]
        have hone : turned.arrivals label = 1 := by simp [hturned, Turned.arrivals, input_eq, place, hl]
        have hgoes : hearer.Goes turned label (hearer.hears (self.views l) content) := by
          refine ⟨rfl, ?_, ?_⟩
          · intro lines hlines
            rw [hheard]
            exact hlines.push (by decide) _
          · intro hseen
            rw [hone]
            subst hturned
            dsimp only [Peer.hears] at hseen ⊢
            rw [hviews, hl]
            split_ifs with hview
            · exact hseen (by rwa [hl])
            · rfl
        exact .inl ⟨hearer, by rwa [hl], hgoes.trans hkeeps⟩
      · refine .inl ⟨middle, hmiddle, ?_⟩
        subst hturned
        have hne : middle.id ≠ hearer.id := by
          intro hid
          apply hl
          apply Option.some.inj
          rw [← hplace hmiddle, ← hplace hhearer, hid]
        refine hkeeps.goes (Turned.lines_of_silent ?_ (by simp)) (Turned.arrivals_of_deaf ?_) (congrFun hviews label)
        · intro other hmessage
          exact hne (congrArg Prod.fst (Option.some.inj (input_eq.symm.trans hmessage))).symm
        · intro id other hmessage hlabel
          obtain ⟨rfl, -⟩ := Prod.mk.inj (Option.some.inj (input_eq.symm.trans hmessage))
          exact hl (Option.some.inj (hlabel.symm.trans (hplace hhearer)))
  | @opens handle remote outbound input_eq still =>
      obtain ⟨middle, hmiddle, hkeeps⟩ := still.peers label peer' hpeer'
      by_cases hl : label = peerLabel (self.nextLabel + 1)
      · rw [hl, AList.lookup_insert] at hmiddle
        obtain rfl := Option.some.inj hmiddle
        refine .inr ⟨handle, remote, outbound, input_eq, hl, hkeeps, ?_, ?_⟩
        · subst hturned
          exact Turned.lines_of_silent (by simp [input_eq, Input.message?]) (by simp)
        · subst hturned
          exact Turned.arrivals_of_deaf (by simp [input_eq, Input.message?])
      · rw [AList.lookup_insert_ne hl] at hmiddle
        exact .inl ⟨middle, hmiddle, hquiet still.views (by rw [input_eq]; rfl) hkeeps (by simp)⟩
  | @enters view speaker deaf known _ still =>
      obtain ⟨middle, hmiddle, hkeeps⟩ := still.peers label peer' hpeer'
      have hviews : app.views label = decide (view.label = label) := congrFun still.views label
      change (self.modify view.label Peer.seen).peers.lookup label = _ at hmiddle
      rw [lookup_modify] at hmiddle
      have hsilent (id : ConnId) : Turned.lines id turned = [] := by
        subst hturned
        exact Turned.lines_of_silent (by simp [deaf]) (by simp)
      have hnone : turned.arrivals label = 0 := by
        subst hturned
        exact Turned.arrivals_of_deaf (by simp [deaf])
      split_ifs at hmiddle with hl
      · obtain rfl : speaker.seen = middle := by simpa [known] using hmiddle
        have hview : turned.post.views label = true := by
          subst hturned
          exact hviews.trans (decide_eq_true hl.symm)
        have hgoes : speaker.Goes turned label speaker.seen := by
          refine ⟨rfl, ?_, ?_⟩
          · intro lines hlines
            rw [hsilent, List.append_nil]
            exact hlines
          · intro _
            rw [if_pos hview]
            rfl
        exact .inl ⟨speaker, by rwa [hl], hgoes.trans hkeeps⟩
      · refine .inl ⟨middle, hmiddle, Peer.Goes.trans ⟨rfl, ?_, ?_⟩ hkeeps⟩
        · intro lines hlines
          rw [hsilent, List.append_nil]
          exact hlines
        · intro _
          have hview : turned.post.views label = false := by
            subst hturned
            rw [hviews]
            exact decide_eq_false (Ne.symm hl)
          rw [hview, hnone]
          rfl
  | questions input_eq _ _ _ still =>
      obtain ⟨peer, hpeer, hkeeps⟩ := still.peers label peer' hpeer'
      exact .inl ⟨peer, hpeer, hquiet still.views (by rw [input_eq]; rfl) hkeeps (by simp)⟩
  | leaves deaf still =>
      obtain ⟨peer, hpeer, hkeeps⟩ := still.peers label peer' hpeer'
      have hview : app.views label = false := congrFun still.views label
      refine .inl ⟨peer, hpeer, Peer.Goes.trans ⟨rfl, ?_, ?_⟩ hkeeps⟩
      · intro lines hlines
        subst hturned
        rw [Turned.lines_of_silent (by simp [deaf]) (by simp), List.append_nil]
        exact hlines
      · intro _
        subst hturned
        dsimp only
        rw [hview, Turned.arrivals_of_deaf (by simp [deaf])]
        rfl
  | renews deaf _ still =>
      obtain ⟨peer, hpeer, hkeeps⟩ := still.peers label peer' hpeer'
      exact .inl ⟨peer, hpeer, hquiet still.views deaf hkeeps (by simp)⟩

theorem App.Does.known (h : self.Does replies input app calls) {call : Call} {id : ConnId} (hcall : call ∈ calls)
    (hid : call.handle? = some id) :
    ∃ label, ∃ peer : Peer, self.peers.lookup label = some peer ∧ peer.handle.id = id := by
  cases h with
  | stays _ _ free => cases (free call hcall).1.symm.trans hid
  | asks _ _ known handle _ =>
      obtain rfl := List.mem_singleton.1 hcall
      exact ⟨_, _, known, Option.some.inj (handle.symm.trans hid)⟩
  | speaks _ known =>
      obtain rfl := List.mem_singleton.1 hcall
      exact ⟨_, _, known, Option.some.inj hid⟩
  | hears | opens | enters | questions | leaves => cases hcall
  | renews =>
      obtain rfl := List.mem_singleton.1 hcall
      cases hid

/-- A question that is pending after a turn was pending before it, or comes with
the turn. -/
theorem App.Does.asked (h : self.Does replies input app calls) {pending' : PendingSas} (hpending' : pending' ∈ app.sas) :
    (∃ pending ∈ self.sas, pending.Asks pending') ∨ pending'.Asked input.event?.toList := by
  cases h with
  | stays still | asks still | renews _ _ still => exact .inl (still.sas pending' hpending')
  | speaks _ _ _ _ still | hears _ _ still =>
      obtain ⟨pending, hpending, hasks⟩ := still.sas pending' hpending'
      rw [sas_modify] at hpending
      exact .inl ⟨pending, hpending, hasks⟩
  | opens _ still | leaves _ still => exact .inl (still.sas pending' hpending')
  | enters _ _ _ still =>
      obtain ⟨pending, hpending, hasks⟩ := still.sas pending' hpending'
      have hsame : pending ∈ self.sas := sas_modify ▸ hpending
      exact .inl ⟨pending, hsame, hasks⟩
  | questions input_eq id_eq words_eq fingerprint_eq still =>
      obtain ⟨pending, hpending, hasks⟩ := still.sas pending' hpending'
      rcases List.mem_append.1 hpending with hpending | hpending
      · exact .inl ⟨pending, hpending, hasks⟩
      · obtain rfl := List.mem_singleton.1 hpending
        refine .inr ⟨_, ?_, hasks.fingerprint_eq.trans fingerprint_eq⟩
        rw [input_eq, hasks.id_eq, id_eq, hasks.words_eq, words_eq]
        exact List.mem_singleton_self _

theorem App.Rooms.step {past : List Turned} {turn : Replies × Input} (h : self.Rooms past)
    (ht : self.sessions.Tracks (events (past.map Record.input)))
    (hf : ∀ event, turn.2.event? = some event → event.Follows (events (past.map Record.input))) :
    (self.step turn).1.Rooms (past ++ [record App.step self turn]) := by
  have hs := ht.consistent
  have hdoes : self.Does turn.1 turn.2 (self.step turn).1 (self.step turn).2.2 := handle_does self turn.1 turn.2
  have hrecord : record App.step self turn =
      { pre := self, input := (turn.1, turn.2), out := ((self.step turn).2.1, (self.step turn).2.2),
        post := (self.step turn).1 } := rfl
  have hgoes {label : Text} {peer' : Peer} (hpeer' : (self.step turn).1.peers.lookup label = some peer') :=
    hdoes.goes hs hrecord hpeer'
  have hseen {label : Text} {peer : Peer} (hpeer : self.peers.lookup label = some peer)
      (hview : self.views label = true) : peer.unread = 0 := (h.unread label peer hpeer).trans (h.viewed label hview)
  constructor
  · intro label peer' hpeer'
    rw [conversation_snoc]
    rcases hgoes hpeer' with ⟨peer, hpeer, hpeer'⟩ | ⟨handle, remote, outbound, hinput, -, hkeeps, hlines, -⟩
    · rw [hpeer'.id_eq]
      exact hpeer'.talks _ (h.talks label peer hpeer)
    · have hnew : ∀ earlier ∈ events (past.map Record.input), earlier.connection ≠ some handle.id :=
        hf (.opened handle remote outbound) (by rw [hinput]; rfl)
      have hsilent : conversation handle.id past = [] :=
        h.silent _ fun event hevent hopens => hnew event hevent (NetEvent.connection_of_opens hopens)
      obtain ⟨texts, htexts⟩ := hkeeps.scrollback
      rw [hkeeps.id_eq, htexts, Peer.fresh, hsilent, hlines]
      exact History.Talked.empty.notices texts
  · intro label peer' hpeer'
    rw [unseen_snoc]
    rcases hgoes hpeer' with ⟨peer, hpeer, hpeer'⟩ | ⟨handle, remote, outbound, -, hlabel, hkeeps, -, hnone⟩
    · rw [hpeer'.unread_eq (hseen hpeer), h.unread label peer hpeer]
    · rw [hkeeps.unread_eq, hnone, hlabel, h.fresh _ (Nat.lt_succ_self _), ite_self]
      rfl
  · intro label hview
    rw [unseen_snoc, record_post, if_pos hview]
  · intro n hn
    have hturn : Sessions.Turn turn.2 self.sessions _ (self.step turn).1.sessions := handle_turn hs turn.1 turn.2
    have hle : self.nextLabel < n := lt_of_le_of_lt hturn.labels_le hn
    rw [unseen_snoc, h.fresh n hle, Turned.arrivals_of_deaf, ite_self]
    intro id content _ hplace
    obtain ⟨session, hsession, -⟩ := hs.indexed.entry hplace
    obtain ⟨m, hm, hlabel⟩ := (hs.fits _ session hsession).numbered
    have hmn := peerLabel_inj hlabel
    have hm' : m ≤ self.nextLabel := hm
    omega
  · intro id hnone
    rw [List.map_append, List.map_singleton, record_input, events_append] at hnone
    have hpast := fun event hevent => hnone event (List.mem_append_left _ hevent)
    rw [conversation_snoc, h.silent id hpast, List.nil_append]
    apply Turned.lines_of_silent
    · intro content hmessage
      have hinput : turn.2 = .net (.conn id (.message content)) := Input.message?_eq_some hmessage
      obtain ⟨⟨event, hevent, hopens⟩, -⟩ :
          (∃ earlier ∈ events (past.map Record.input), earlier.opens id) ∧ _ :=
        hf (.conn id (.message content)) (by rw [hinput]; rfl)
      exact hpast event hevent hopens
    · intro _ content hcall
      obtain ⟨label, peer, hpeer, hhandle⟩ := hdoes.known hcall rfl
      have hsession := sessions_peers hpeer
      obtain ⟨event, hevent, hopens⟩ := (ht.known label _ hsession).opened
      refine hpast event hevent ?_
      rw [← hhandle]
      rwa [← (hs.fits label _ hsession).handle_id] at hopens
  · intro pending' hpending'
    rw [List.map_append, List.map_singleton, record_input, events_append]
    rcases hdoes.asked hpending' with ⟨pending, hpending, hasks⟩ | ⟨peer, hpeer, hfingerprint⟩
    · obtain ⟨peer, hpeer, hfingerprint⟩ := h.asked pending hpending
      refine ⟨peer, List.mem_append_left _ ?_, hasks.fingerprint_eq.trans hfingerprint⟩
      rwa [hasks.id_eq, hasks.words_eq]
    · exact ⟨peer, List.mem_append_right _ hpeer, hfingerprint⟩

theorem App.rooms_empty (hpeers : ∀ label, self.peers.lookup label = none) (hsas : self.sas = []) :
    self.Rooms [] where
  talks := by
    intro label peer hpeer
    cases (hpeers label).symm.trans hpeer
  unread := by
    intro label peer hpeer
    cases (hpeers label).symm.trans hpeer
  viewed := fun _ _ => rfl
  fresh := fun _ _ => rfl
  silent := fun _ _ => rfl
  asked := by simp [hsas]

end Step

end Ruxmsg.Cli

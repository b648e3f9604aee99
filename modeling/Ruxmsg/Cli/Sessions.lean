import Ruxmsg.Cli.App
import Ruxmsg.Library.Index

namespace Ruxmsg.Cli

open Library.Index

structure Session where
  id : ConnId
  handle : ConnectionHandle
  status : PeerStatus

structure Question where
  id : ConnId
  label : Text
  typed : Text

structure Sessions where
  byId : ConnId → Option Text
  peers : Text → Option Session
  target : Option Text
  labels : Nat
  queue : List Question
  chat : Option Text

def peerLabel (n : Nat) : Text := "peer".toList ++ Nat.toDigits 10 n

theorem peerLabel_inj {m n : Nat} (h : peerLabel m = peerLabel n) : m = n := by
  have hdigits : Nat.toDigits 10 m = Nat.toDigits 10 n := List.append_cancel_left h
  have hvalue := congrArg (fun digits => Nat.ofDigitChars 10 digits 0) hdigits
  simpa only [Nat.ofDigitChars_ten_toDigits] using hvalue

def Peer.fresh (handle : ConnectionHandle) (remote : Text) (outbound : Bool) : Peer :=
  { id := handle.id, handle, remote, outbound, status := .handshaking, fingerprint := none, rekeying := false,
    lastDataRejectionNotice := none, scrollback := .empty, unread := 0, closeNote := none }

def KeyEvent.edit (key : KeyEvent) (typed : Text) : Text :=
  if key.code = .backspace then typed.dropLast
  else
    match key.typed with
    | some character => App.pushTyped character typed
    | none => typed

def Input.edit : Input → Text → Text
  | .terminal (.press key) => key.edit
  | _ => id

def answers (calls : List Call) : List (ConnId × Bool) :=
  calls.filterMap fun call =>
    match call with
    | .answerSas id approved => some (id, approved)
    | _ => none

namespace Sessions

def edited (s : Sessions) (f : Text → Text) : Sessions :=
  { s with queue := s.queue.modifyHead fun q => { q with typed := f q.typed } }

def opened (s : Sessions) (handle : ConnectionHandle) : Sessions :=
  { s with
    labels := s.labels + 1
    byId := Function.update s.byId handle.id (some (peerLabel (s.labels + 1)))
    peers := Function.update s.peers (peerLabel (s.labels + 1))
      (some { id := handle.id, handle, status := .handshaking }) }

def marked (s : Sessions) (label : Text) (session : Session) (status : PeerStatus) : Sessions :=
  { s with peers := Function.update s.peers label (some { session with status }) }

def forgotten (s : Sessions) (label : Text) (session : Session) : Sessions :=
  { s with
    byId := Function.update s.byId session.id none
    peers := Function.update s.peers label none }

/-- What a closed connection leaves besides its own entry. -/
def dropped (s : Sessions) (id : ConnId) (label : Text) : Sessions :=
  { s with
    queue := s.queue.filter fun q => q.id ≠ id
    target := if s.target = some label then none else s.target }

/-- What one turn of the loop can do to the connections, and the answers it
gives. -/
inductive Turn (input : Input) (s : Sessions) : List (ConnId × Bool) → Sessions → Prop
  | edits (quiet : ∀ id cause, input = .net (.conn id (.closed cause)) → s.byId id = none)
      (full : ∀ handle remote outbound, input = .net (.opened handle remote outbound) → u64Max ≤ s.labels) :
      Turn input s [] (s.edited input.edit)
  | answers {key : KeyEvent} {q qs session approved} (input_eq : input = .terminal (.press key))
      (queue_eq : s.queue = q :: qs) (known : s.peers q.label = some session)
      (typed : approved = true → key.code = .enter ∧ isApproval q.typed) :
      Turn input s [(session.handle.id, approved)] { s with queue := qs }
  | targets {key : KeyEvent} {label session} (input_eq : input = .terminal (.press key))
      (queue_eq : s.queue = []) (chat_eq : s.chat = none) (known : s.peers label = some session) :
      Turn input s [] { s with target := some label }
  | enters {key : KeyEvent} {label session} (input_eq : input = .terminal (.press key))
      (queue_eq : s.queue = []) (chat_eq : s.chat = none) (known : s.peers label = some session)
      (connected : session.status = .connected) :
      Turn input s [] { s with target := some label, chat := some label }
  | leaves {key : KeyEvent} {label} (input_eq : input = .terminal (.press key)) (queue_eq : s.queue = [])
      (chat_eq : s.chat = some label) (kept : ∀ session, s.peers label = some session → session.status ≠ .closed) :
      Turn input s [] { s with chat := none }
  | forgets {key : KeyEvent} {label session} (input_eq : input = .terminal (.press key))
      (queue_eq : s.queue = []) (chat_eq : s.chat = some label) (known : s.peers label = some session)
      (closed : session.status = .closed) : Turn input s [] { s.forgotten label session with chat := none }
  | opens {handle remote outbound} (input_eq : input = .net (.opened handle remote outbound)) :
      Turn input s [] (s.opened handle)
  | establishes {id peer label session} (input_eq : input = .net (.conn id (.established peer)))
      (place : s.byId id = some label) (known : s.peers label = some session) :
      Turn input s [] (s.marked label session .connected)
  | asks {id words peer label} (input_eq : input = .net (.conn id (.sasRequired words peer)))
      (place : s.byId id = some label) (room : s.queue.length < maxUnauthenticatedHandshakes) :
      Turn input s [] { s with queue := s.queue ++ [{ id, label, typed := [] }] }
  | refuses {id words peer label session} (input_eq : input = .net (.conn id (.sasRequired words peer)))
      (place : s.byId id = some label) (known : s.peers label = some session) :
      Turn input s [(session.handle.id, false)] s
  | closes {id cause label session} (input_eq : input = .net (.conn id (.closed cause)))
      (place : s.byId id = some label) (known : s.peers label = some session) (viewed : s.chat = some label) :
      Turn input s [] ((s.dropped id label).marked label session .closed)
  | ends {id cause label session} (input_eq : input = .net (.conn id (.closed cause)))
      (place : s.byId id = some label) (known : s.peers label = some session) (unviewed : s.chat ≠ some label) :
      Turn input s [] ((s.dropped id label).forgotten label session)

def Alive (s : Sessions) (label : Text) (id : ConnId) : Prop :=
  ∃ session, s.peers label = some session ∧ session.id = id ∧ session.status ≠ .closed

/-- An entry of the table: a closed session is kept for its own chat only. -/
structure Fits (chat : Option Text) (labels : Nat) (label : Text) (session : Session) : Prop where
  handle_id : session.handle.id = session.id
  viewed : session.status = .closed → chat = some label
  numbered : ∃ n ≤ labels, label = peerLabel n

/-- The tables agree with each other, and nothing is kept of a closed session
but what its own chat shows. -/
structure Consistent (s : Sessions) : Prop where
  indexed : Indexes s.byId s.peers Session.id
  fits : ∀ label session, s.peers label = some session → Fits s.chat s.labels label session
  queued : ∀ q ∈ s.queue, s.Alive q.label q.id
  targeted : ∀ label, s.target = some label → ∃ id, s.Alive label id
  queue_le : s.queue.length ≤ maxUnauthenticatedHandshakes

/-- The net layer numbers connections afresh, and a closed one is silent. -/
structure Accepts (s : Sessions) (input : Input) : Prop where
  fresh : ∀ handle remote outbound, input = .net (.opened handle remote outbound) → s.byId handle.id = none
  alive : ∀ id event label session, input = .net (.conn id event) → s.byId id = some label →
    s.peers label = some session → session.status ≠ .closed

section Preserved

variable {s s' : Sessions} {input : Input} {given : List (ConnId × Bool)} {label l : Text} {session : Session}
  {id : ConnId}

theorem Consistent.fresh (hs : s.Consistent) : s.peers (peerLabel (s.labels + 1)) = none := by
  apply Option.eq_none_iff_forall_ne_some.2
  intro session hsession
  obtain ⟨n, hn, hlabel⟩ := (hs.fits _ session hsession).numbered
  have := peerLabel_inj hlabel
  omega

theorem Alive.update (h : s.Alive l id) (hl : l ≠ label) {entry : Option Session}
    (hpeers : s'.peers = Function.update s.peers label entry) : s'.Alive l id := by
  obtain ⟨e, he, h⟩ := h
  refine ⟨e, ?_, h⟩
  rw [hpeers, Function.update_of_ne hl]
  exact he

theorem Alive.label_ne (h : s.Alive l id) (hlabel : s.peers label = some session)
    (hid : session.id ≠ id) : l ≠ label := by
  rintro rfl
  obtain ⟨e, he, hid', -⟩ := h
  obtain rfl := Option.some.inj (hlabel.symm.trans he)
  exact hid hid'

theorem Consistent.edited (hs : s.Consistent) (f : Text → Text) : (s.edited f).Consistent := by
  refine
    { indexed := hs.indexed
      fits := hs.fits
      queued := ?_
      targeted := hs.targeted
      queue_le := ?_ }
  · intro q hq
    cases hqueue : s.queue with
    | nil => simp [Sessions.edited, hqueue] at hq
    | cons first rest =>
        simp only [Sessions.edited, hqueue, List.modifyHead_cons, List.mem_cons] at hq
        rcases hq with rfl | hq
        · exact hs.queued first (by rw [hqueue]; exact List.mem_cons_self)
        · exact hs.queued q (by rw [hqueue]; exact List.mem_cons_of_mem first hq)
  · simpa only [Sessions.edited, List.length_modifyHead] using hs.queue_le

theorem Consistent.opened (hs : s.Consistent) {handle : ConnectionHandle} (hfresh : s.byId handle.id = none) :
    (s.opened handle).Consistent := by
  have hlabel := hs.fresh
  have halive (l : Text) (id : ConnId) (h : s.Alive l id) : (s.opened handle).Alive l id := by
    refine h.update (?_ : l ≠ peerLabel (s.labels + 1)) rfl
    rintro rfl
    obtain ⟨e, he, -⟩ := h
    cases hlabel.symm.trans he
  refine
    { indexed := hs.indexed.insert (a := ({ id := handle.id, handle, status := .handshaking } : Session)) hfresh hlabel
      fits := ?_
      queued := fun q hq => halive _ _ (hs.queued q hq)
      targeted := ?_
      queue_le := hs.queue_le }
  · intro l e he
    rcases update_eq_some.1 he with ⟨rfl, h⟩ | ⟨-, h⟩
    · obtain rfl := Option.some.inj h
      exact ⟨rfl, by simp, _, le_rfl, rfl⟩
    · obtain ⟨hhandle, hviewed, n, hn, hlabel⟩ := hs.fits l e h
      exact ⟨hhandle, hviewed, n, Nat.le_succ_of_le hn, hlabel⟩
  · intro l hl
    obtain ⟨id, h⟩ := hs.targeted l hl
    exact ⟨id, halive l id h⟩

theorem Consistent.marked_connected (hs : s.Consistent) (hlabel : s.peers label = some session) :
    (s.marked label session .connected).Consistent := by
  have halive (l : Text) (id : ConnId) (h : s.Alive l id) : (s.marked label session .connected).Alive l id := by
    by_cases hl : l = label
    · subst l
      obtain ⟨e, he, hid, -⟩ := h
      obtain rfl := Option.some.inj (hlabel.symm.trans he)
      exact ⟨_, Function.update_self .., hid, by simp⟩
    · exact h.update hl rfl
  refine
    { indexed := hs.indexed.modify hlabel rfl
      fits := ?_
      queued := fun q hq => halive _ _ (hs.queued q hq)
      targeted := ?_
      queue_le := hs.queue_le }
  · intro l e he
    rcases update_eq_some.1 he with ⟨rfl, h⟩ | ⟨-, h⟩
    · obtain rfl := Option.some.inj h
      exact ⟨(hs.fits l session hlabel).handle_id, by simp, (hs.fits l session hlabel).numbered⟩
    · exact hs.fits l e h
  · intro l hl
    obtain ⟨id, h⟩ := hs.targeted l hl
    exact ⟨id, halive l id h⟩

theorem Consistent.dropped_queued (hs : s.Consistent) (hlabel : s.peers label = some session)
    {entry : Option Session} (hqueue : s'.queue = s.queue.filter fun q => q.id ≠ session.id)
    (hpeers : s'.peers = Function.update s.peers label entry) : ∀ q ∈ s'.queue, s'.Alive q.label q.id := by
  intro q hq
  rw [hqueue, List.mem_filter, decide_eq_true_eq] at hq
  have halive := hs.queued q hq.1
  exact halive.update (halive.label_ne hlabel (Ne.symm hq.2)) hpeers

theorem Consistent.dropped_targeted (hs : s.Consistent) {entry : Option Session}
    (htarget : s'.target = if s.target = some label then none else s.target)
    (hpeers : s'.peers = Function.update s.peers label entry) :
    ∀ l, s'.target = some l → ∃ id, s'.Alive l id := by
  intro l hl
  rw [htarget] at hl
  split at hl
  · cases hl
  · next hne =>
    obtain ⟨id, h⟩ := hs.targeted l hl
    refine ⟨id, h.update ?_ hpeers⟩
    rintro rfl
    exact hne hl

theorem Consistent.closed (hs : s.Consistent) (hlabel : s.peers label = some session)
    (hviewed : s.chat = some label) : ((s.dropped session.id label).marked label session .closed).Consistent where
  indexed := hs.indexed.modify hlabel rfl
  fits := by
    intro l e he
    rcases update_eq_some.1 he with ⟨rfl, h⟩ | ⟨-, h⟩
    · obtain rfl := Option.some.inj h
      exact ⟨(hs.fits l session hlabel).handle_id, fun _ => hviewed, (hs.fits l session hlabel).numbered⟩
    · exact hs.fits l e h
  queued := hs.dropped_queued hlabel rfl rfl
  targeted := hs.dropped_targeted rfl rfl
  queue_le := (List.length_filter_le ..).trans hs.queue_le

theorem Consistent.ended (hs : s.Consistent) (hlabel : s.peers label = some session) :
    ((s.dropped session.id label).forgotten label session).Consistent where
  indexed := hs.indexed.erase hlabel
  fits := by
    intro l e he
    rcases update_eq_some.1 he with ⟨-, h⟩ | ⟨-, h⟩
    · cases h
    · exact hs.fits l e h
  queued := hs.dropped_queued hlabel rfl rfl
  targeted := hs.dropped_targeted rfl rfl
  queue_le := (List.length_filter_le ..).trans hs.queue_le

theorem Consistent.left (hs : s.Consistent) (hqueue : s.queue = []) (hviewed : s.chat = some label)
    (hkept : ∀ session, s.peers label = some session → session.status ≠ .closed) :
    ({ s with chat := none } : Sessions).Consistent where
  indexed := hs.indexed
  fits := by
    intro l e he
    obtain ⟨hhandle, hclosed, hnumbered⟩ := hs.fits l e he
    refine ⟨hhandle, ?_, hnumbered⟩
    intro h
    obtain rfl := Option.some.inj (hviewed.symm.trans (hclosed h))
    exact absurd h (hkept e he)
  queued := by simp [hqueue]
  targeted := hs.targeted
  queue_le := hs.queue_le

theorem Consistent.left_closed (hs : s.Consistent) (hqueue : s.queue = []) (hviewed : s.chat = some label)
    (hlabel : s.peers label = some session) (hclosed : session.status = .closed) :
    ({ s.forgotten label session with chat := none } : Sessions).Consistent where
  indexed := hs.indexed.erase hlabel
  fits := by
    intro l e he
    rcases update_eq_some.1 he with ⟨-, h⟩ | ⟨hl, h⟩
    · cases h
    · obtain ⟨hhandle, hchat, hnumbered⟩ := hs.fits l e h
      refine ⟨hhandle, ?_, hnumbered⟩
      intro h
      exact absurd (Option.some.inj ((hchat h).symm.trans hviewed)) hl
  queued := by simp [Sessions.forgotten, hqueue]
  targeted := by
    intro l hl
    obtain ⟨id, halive⟩ := hs.targeted l hl
    refine ⟨id, halive.update ?_ rfl⟩
    rintro rfl
    obtain ⟨e, he, -, halive⟩ := halive
    obtain rfl := Option.some.inj (hlabel.symm.trans he)
    exact halive hclosed
  queue_le := hs.queue_le

/-- A turn keeps the tables in order. -/
theorem Turn.consistent (h : Turn input s given s') (hs : s.Consistent) (ha : s.Accepts input) :
    s'.Consistent := by
  cases h with
  | edits => exact hs.edited input.edit
  | answers _ hqueue =>
      refine { hs with queued := ?_, queue_le := ?_ }
      · intro q hq
        exact hs.queued q (by rw [hqueue]; exact List.mem_cons_of_mem _ hq)
      · have hle := hs.queue_le
        rw [hqueue] at hle
        exact Nat.le_of_succ_le hle
  | @targets _ label session _ hqueue hchat hlabel =>
      refine { hs with targeted := ?_ }
      intro l hl
      obtain rfl := Option.some.inj hl
      refine ⟨session.id, session, hlabel, rfl, ?_⟩
      intro hclosed
      cases hchat.symm.trans ((hs.fits label session hlabel).viewed hclosed)
  | @enters _ label session _ hqueue hchat hlabel hconnected =>
      refine
        { indexed := hs.indexed
          fits := ?_
          queued := hs.queued
          targeted := ?_
          queue_le := hs.queue_le }
      · intro l e he
        obtain ⟨hhandle, hviewed, hnumbered⟩ := hs.fits l e he
        refine ⟨hhandle, ?_, hnumbered⟩
        intro hclosed
        cases hchat.symm.trans (hviewed hclosed)
      · intro l hl
        obtain rfl := Option.some.inj hl
        exact ⟨session.id, session, hlabel, rfl, by simp [hconnected]⟩
  | leaves _ hqueue hchat hkept => exact hs.left hqueue hchat hkept
  | forgets _ hqueue hchat hlabel hclosed => exact hs.left_closed hqueue hchat hlabel hclosed
  | opens hinput => exact hs.opened (ha.fresh _ _ _ hinput)
  | establishes _ _ hlabel => exact hs.marked_connected hlabel
  | @asks id _ _ label hinput hplace hroom =>
      refine { hs with queued := ?_, queue_le := ?_ }
      · intro q hq
        rcases List.mem_append.1 hq with hq | hq
        · exact hs.queued q hq
        · obtain rfl := List.mem_singleton.1 hq
          obtain ⟨session, hlabel, hid⟩ := hs.indexed.entry hplace
          exact ⟨session, hlabel, hid, ha.alive _ _ _ _ hinput hplace hlabel⟩
      · rw [List.length_append]
        exact hroom
  | refuses => exact hs
  | closes _ hplace hlabel hviewed =>
      obtain ⟨session, hlabel', rfl⟩ := hs.indexed.entry hplace
      obtain rfl := Option.some.inj (hlabel.symm.trans hlabel')
      exact hs.closed hlabel hviewed
  | ends _ hplace hlabel =>
      obtain ⟨session, hlabel', rfl⟩ := hs.indexed.entry hplace
      obtain rfl := Option.some.inj (hlabel.symm.trans hlabel')
      exact hs.ended hlabel

end Preserved

end Sessions

end Ruxmsg.Cli

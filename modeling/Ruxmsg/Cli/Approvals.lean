import Ruxmsg.Cli.Table

namespace Ruxmsg.Cli

open Library.Machine Library.Index

section Past

def typedFor (id : ConnId) (past : List Turned) : Text :=
  past.foldl (fun typed turned =>
    if turned.pre.sas.head?.map PendingSas.id = some id then turned.input.2.edit typed else typed) []

def givenTo (id : ConnId) (given : List (ConnId × Bool)) : List Bool :=
  given.filterMap fun answer => if answer.1 = id then some answer.2 else none

def answersTo (id : ConnId) (past : List Turned) : List Bool :=
  past.flatMap fun turned => givenTo id (answers turned.out.2)

def asked (id : ConnId) (events : List NetEvent) : Nat := events.countP (NetEvent.asks id)

variable {id : ConnId} {past : List Turned} {turned : Turned}

theorem typedFor_snoc : typedFor id (past ++ [turned]) =
    if turned.pre.sas.head?.map PendingSas.id = some id then turned.input.2.edit (typedFor id past)
    else typedFor id past := by
  rw [typedFor, List.foldl_append]
  rfl

theorem answersTo_snoc :
    answersTo id (past ++ [turned]) = answersTo id past ++ givenTo id (answers turned.out.2) := by
  rw [answersTo, List.flatMap_append, List.flatMap_singleton]
  rfl

end Past

namespace Sessions

/-- The connections that wait for an answer, first come first. -/
def waiting (s : Sessions) : List ConnId := s.queue.map Question.id

section Counts

variable {events : List NetEvent} {s s' : Sessions} {input : Input} {given : List (ConnId × Bool)} {id : ConnId}

theorem waiting_edited (f : Text → Text) : (s.edited f).waiting = s.waiting := by
  unfold waiting edited
  cases s.queue <;> rfl

theorem givenTo_singleton (id other : ConnId) (approved : Bool) :
    (givenTo id [(other, approved)]).length = [other].count id := by
  by_cases h : other = id <;> simp [givenTo, h]

theorem Consistent.answers_id (hs : s.Consistent) {q : Question} {session : Session} (hq : q ∈ s.queue)
    (hknown : s.peers q.label = some session) : session.handle.id = q.id ∧ session.status ≠ .closed := by
  obtain ⟨session', hlabel, hid, halive⟩ := hs.queued q hq
  obtain rfl := Option.some.inj (hknown.symm.trans hlabel)
  exact ⟨((hs.fits _ _ hknown).handle_id).trans hid, halive⟩

/-- A turn queues or answers a connection where it asks, and takes out of the
queue what it answers from there. -/
theorem Turn.waiting_le (h : Turn input s given s') (hs : s.Consistent) (id : ConnId) :
    (givenTo id given).length + s'.waiting.count id ≤ s.waiting.count id + asked id input.event?.toList := by
  cases h with
  | edits =>
      rw [waiting_edited]
      exact (Nat.zero_add _).trans_le (Nat.le_add_right ..)
  | @answers _ q qs session approved _ hqueue hknown =>
      have hwaiting : s.waiting = [q.id] ++ qs.map Question.id := by
        rw [waiting, hqueue]
        rfl
      rw [(hs.answers_id (by rw [hqueue]; exact List.mem_cons_self) hknown).1, givenTo_singleton, hwaiting,
        List.count_append]
      exact Nat.le_add_right ..
  | targets | enters | leaves | forgets | opens | establishes =>
      exact (Nat.zero_add _).trans_le (Nat.le_add_right ..)
  | @asks other words peer label hinput =>
      have hwaiting : ({ s with queue := s.queue ++ [{ id := other, label, typed := [] }] } : Sessions).waiting =
          s.waiting ++ [other] := by
        simp only [waiting, List.map_append, List.map_singleton]
      rw [hwaiting, List.count_append, hinput]
      by_cases hid : other = id <;> simp [asked, Input.event?, NetEvent.asks, givenTo, hid]
  | @refuses other words peer label session hinput hplace hknown =>
      obtain ⟨session', hlabel, hid⟩ := hs.indexed.entry hplace
      obtain rfl := Option.some.inj (hknown.symm.trans hlabel)
      rw [(hs.fits _ _ hknown).handle_id, hid, givenTo_singleton, Nat.add_comm, hinput]
      by_cases hid : other = id <;> simp [asked, Input.event?, NetEvent.asks, hid]
  | @closes other =>
      refine (Nat.zero_add _).trans_le (Nat.le_trans ?_ (Nat.le_add_right ..))
      exact ((List.filter_sublist).map Question.id).count_le id
  | @ends other =>
      refine (Nat.zero_add _).trans_le (Nat.le_trans ?_ (Nat.le_add_right ..))
      exact ((List.filter_sublist).map Question.id).count_le id

/-- A turn types into the head of the queue, and into nothing else. -/
theorem Turn.typed (h : Turn input s given s') (hdistinct : s.waiting.Nodup) (typed : ConnId → Text)
    (htyped : ∀ q ∈ s.queue, q.typed = typed q.id)
    (hasks : ∀ id, 0 < asked id input.event?.toList → typed id = []) :
    ∀ q ∈ s'.queue, q.typed = if s.waiting.head? = some q.id then input.edit (typed q.id) else typed q.id := by
  have hrest (first : Question) (rest : List Question) (hqueue : s.queue = first :: rest) :
      ∀ q ∈ rest, q.typed = if s.waiting.head? = some q.id then input.edit (typed q.id) else typed q.id := by
    intro q hq
    have hwaiting : s.waiting = first.id :: rest.map Question.id := by rw [waiting, hqueue, List.map_cons]
    rw [hwaiting] at hdistinct ⊢
    rw [if_neg]
    · exact htyped q (by rw [hqueue]; exact List.mem_cons_of_mem _ hq)
    · intro hhead
      apply (List.nodup_cons.1 hdistinct).1
      rw [Option.some.inj hhead]
      exact List.mem_map_of_mem hq
  have hstill (hedit : input.edit = id) (hsub : ∀ q ∈ s'.queue, q ∈ s.queue) :
      ∀ q ∈ s'.queue, q.typed = if s.waiting.head? = some q.id then input.edit (typed q.id) else typed q.id := by
    intro q hq
    rw [hedit, id, ite_self]
    exact htyped q (hsub q hq)
  have hnone (hqueue : s.queue = []) (hsame : s'.queue = s.queue) :
      ∀ q ∈ s'.queue, q.typed = if s.waiting.head? = some q.id then input.edit (typed q.id) else typed q.id := by
    rw [hsame, hqueue]
    simp
  cases h with
  | edits =>
      intro q hq
      cases hqueue : s.queue with
      | nil => simp [edited, hqueue] at hq
      | cons first rest =>
          simp only [edited, hqueue, List.modifyHead_cons, List.mem_cons] at hq
          rcases hq with rfl | hq
          · rw [if_pos (by rw [waiting, hqueue]; rfl)]
            exact congrArg input.edit (htyped first (by rw [hqueue]; exact List.mem_cons_self))
          · exact hrest first rest hqueue q hq
  | answers _ hqueue => exact hrest _ _ hqueue
  | targets _ hqueue | enters _ hqueue | leaves _ hqueue | forgets _ hqueue => exact hnone hqueue rfl
  | opens hinput | establishes hinput | refuses hinput =>
      subst hinput
      exact hstill rfl fun q hq => hq
  | @asks id words peer label hinput =>
      subst hinput
      intro q hq
      refine Eq.trans ?_ (ite_self (typed q.id)).symm
      rcases List.mem_append.1 hq with hq | hq
      · exact htyped q hq
      · obtain rfl := List.mem_singleton.1 hq
        exact (hasks id (by simp [asked, Input.event?, NetEvent.asks])).symm
  | closes hinput | ends hinput =>
      subst hinput
      exact hstill rfl fun q hq => List.mem_of_mem_filter hq

end Counts

structure Queued (past : List Turned) (s : Sessions) : Prop where
  answered : ∀ id, (answersTo id past).length + s.waiting.count id ≤ asked id (events (past.map Record.input))
  typed : ∀ q ∈ s.queue, q.typed = typedFor q.id past
  untyped : ∀ id, asked id (events (past.map Record.input)) = 0 → typedFor id past = []

end Sessions

section Reachable

open Sessions

variable {past : List Turned} {app : App} {id : ConnId}

theorem head_eq (app : App) : app.sas.head?.map PendingSas.id = app.sessions.waiting.head? := by
  simp only [waiting, App.sessions, List.map_map, List.head?_map]
  rfl

theorem typedFor_record (turn : Replies × Input) : typedFor id (past ++ [record App.step app turn]) =
    if app.sessions.waiting.head? = some id then turn.2.edit (typedFor id past) else typedFor id past := by
  rw [typedFor_snoc, record_pre, head_eq, record_input]

theorem Sessions.Queued.step (hq : app.sessions.Queued past) (hs : app.sessions.Consistent) (turn : Replies × Input)
    (honce : ∀ id, asked id (events ((past ++ [record App.step app turn]).map Record.input)) ≤ 1) :
    (app.step turn).1.sessions.Queued (past ++ [record App.step app turn]) := by
  have hturn : Turn turn.2 app.sessions (answers (app.step turn).2.2) (app.step turn).1.sessions :=
    App.handle_turn hs turn.1 turn.2
  have hasked (id : ConnId) : asked id (events ((past ++ [record App.step app turn]).map Record.input)) =
      asked id (events (past.map Record.input)) + asked id turn.2.event?.toList := by
    rw [List.map_append, List.map_singleton, record_input, events_append, asked, List.countP_append]
    rfl
  refine ⟨?_, ?_, ?_⟩
  · intro id
    have hle := hturn.waiting_le hs id
    have hpast := hq.answered id
    rw [answersTo_snoc, List.length_append, hasked, record_out]
    omega
  · have hdistinct : app.sessions.waiting.Nodup := by
      apply List.nodup_iff_count_le_one.2
      intro id
      have hpast := hq.answered id
      have hle := honce id
      rw [hasked] at hle
      omega
    have htyped := hturn.typed hdistinct (typedFor · past) hq.typed
    intro q hmem
    rw [typedFor_record]
    apply htyped _ q hmem
    intro id hpos
    apply hq.untyped
    have hle := honce id
    rw [hasked] at hle
    omega
  · intro id hnone
    rw [hasked] at hnone
    rw [typedFor_record, hq.untyped id (by omega), if_neg]
    intro hhead
    have hcount := List.count_pos_iff.2 (List.mem_of_mem_head? hhead)
    have := hq.answered id
    omega

/-- The queue follows the events and the keys. -/
theorem reachable_queued (keys : KeyMap) (turns : List (Replies × Input)) (h : Orderly (events turns))
    (honce : ∀ id, asked id (events turns) ≤ 1) :
    (final App.step (App.new keys) turns).sessions.Queued (trace App.step (App.new keys) turns) := by
  induction turns using List.reverseRecOn with
  | nil => exact ⟨fun id => Nat.le_refl 0, by simp [App.new, App.sessions], fun id _ => rfl⟩
  | append_singleton turns turn ih =>
      have hsplit := events_append turns turn
      have hbefore : Orderly (events turns) := by
        rw [hsplit] at h
        exact h.left_of_append
      have honce' (id : ConnId) : asked id (events turns) ≤ 1 := by
        have hle := honce id
        rw [hsplit, asked, List.countP_append] at hle
        exact (Nat.le_add_right ..).trans hle
      have htracks := (reachable_tracks keys turns hbefore).1
      have hinputs : (trace App.step (App.new keys) (turns ++ [turn])).map Record.input = turns ++ [turn] :=
        trace_inputs ..
      rw [trace_append, trace, trace] at hinputs
      rw [trace_append, final_append]
      apply (ih hbefore honce').step htracks.consistent turn
      intro id
      rw [hinputs]
      exact honce id

variable {keys : KeyMap} {turns : List (Replies × Input)} {turned : Turned} {future : List Turned}

theorem turn_meets (h : Orderly (events turns)) (honce : ∀ id, asked id (events turns) ≤ 1)
    (hsplit : trace App.step (App.new keys) turns = past ++ turned :: future) :
    turned.pre.sessions.Tracks (events (past.map Record.input)) ∧ turned.pre.sessions.Queued past ∧
      (∀ event, turned.input.2.event? = some event → event.Follows (events (past.map Record.input))) ∧
      Turn turned.input.2 turned.pre.sessions (answers turned.out.2) turned.post.sessions := by
  obtain ⟨before, turn, after, rfl, rfl, rfl⟩ := trace_eq_append hsplit
  rw [trace_inputs]
  have hevents : events (before ++ turn :: after) = events (before ++ [turn]) ++ events after := by
    rw [List.append_cons, events, List.filterMap_append]
    rfl
  rw [hevents] at h
  have hfollows : Orderly (events before ++ turn.2.event?.toList) := by
    rw [← events_append]
    exact h.left_of_append
  have honce' (id : ConnId) : asked id (events before) ≤ 1 := by
    have hle := honce id
    rw [hevents, events_append, asked, List.countP_append, List.countP_append] at hle
    rw [asked]
    omega
  obtain ⟨hbefore, hf⟩ := hfollows.follows
  have htracks := (reachable_tracks keys before hbefore).1
  exact ⟨htracks, reachable_queued keys before hbefore honce', hf, App.handle_turn htracks.consistent turn.1 turn.2⟩

theorem mem_answers {calls : List Call} {approved : Bool} (h : .answerSas id approved ∈ calls) :
    (id, approved) ∈ answers calls :=
  List.mem_filterMap.2 ⟨_, h, rfl⟩

end Reachable

namespace Sessions

variable {events : List NetEvent} {s s' : Sessions} {input : Input} {given : List (ConnId × Bool)} {id : ConnId}

/-- Where a turn answers a connection, the connection is at the head of the
queue, or has just asked and is refused. -/
theorem Turn.answered (h : Turn input s given s') (hs : s.Consistent) {approved : Bool}
    (hgiven : (id, approved) ∈ given) :
    (∃ key q qs, input = .terminal (.press key) ∧ s.queue = q :: qs ∧ q.id = id ∧ s.Alive q.label id ∧
      (approved = true → key.code = .enter ∧ isApproval q.typed = true)) ∨
    (approved = false ∧ ∃ words peer, input = .net (.conn id (.sasRequired words peer))) := by
  cases h with
  | @answers key q qs session approved' hinput hqueue hknown htyped =>
      obtain ⟨rfl, rfl⟩ := Prod.mk.inj (List.mem_singleton.1 hgiven)
      have hq : q ∈ s.queue := by
        rw [hqueue]
        exact List.mem_cons_self
      have hid := (hs.answers_id hq hknown).1
      exact .inl ⟨key, q, qs, hinput, hqueue, hid.symm, by rw [hid]; exact hs.queued q hq, htyped⟩
  | @refuses other words peer label session hinput hplace hknown =>
      obtain ⟨rfl, rfl⟩ := Prod.mk.inj (List.mem_singleton.1 hgiven)
      obtain ⟨session', hlabel, hid⟩ := hs.indexed.entry hplace
      obtain rfl := Option.some.inj (hknown.symm.trans hlabel)
      rw [(hs.fits _ _ hknown).handle_id, hid]
      exact .inr ⟨rfl, words, peer, hinput⟩
  | _ => cases hgiven

theorem Turn.answered_alive (h : Turn input s given s') (ht : s.Tracks events)
    (hf : ∀ event, input.event? = some event → event.Follows events) {approved : Bool}
    (hgiven : (id, approved) ∈ given) : ∀ event ∈ events ++ input.event?.toList, ¬ event.closes id := by
  intro event hevent hcloses
  rcases h.answered ht.consistent hgiven with ⟨key, q, qs, rfl, -, -, ⟨session, hlabel, rfl, halive⟩, -⟩ |
    ⟨-, words, peer, rfl⟩
  · rw [show Input.event? (.terminal (.press key)) = none from rfl, Option.toList_none, List.append_nil] at hevent
    exact halive ((ht.known _ _ hlabel).closed_iff.2 ⟨event, hevent, hcloses⟩)
  · rcases List.mem_append.1 hevent with hevent | hevent
    · obtain ⟨-, hsilent⟩ : _ ∧ ∀ earlier ∈ events, ¬ earlier.closes id := hf _ rfl
      exact hsilent event hevent hcloses
    · obtain rfl := List.mem_singleton.1 hevent
      cases hcloses

end Sessions

open Sessions in
/-- An approval reaches the connection it was typed for. It is sent only on an
Enter, to the connection at the head of the queue, whose own buffer says yes and
holds what was typed while it was the head. No connection is answered twice or
after its end, and the queue is bounded. -/
theorem approvals_reach_their_connection (keys : KeyMap) (turns : List (Replies × Input))
    (h : Orderly (events turns)) (honce : ∀ id, asked id (events turns) ≤ 1) :
    (∀ past turned future id, trace App.step (App.new keys) turns = past ++ turned :: future →
      .answerSas id true ∈ turned.out.2 →
      (∃ key, turned.input.2 = .terminal (.press key) ∧ key.code = .enter) ∧
      ∃ pending rest, turned.pre.sas = pending :: rest ∧ pending.id = id ∧
        pending.typed = typedFor id past ∧ isApproval pending.typed = true) ∧
    (∀ id, (answersTo id (trace App.step (App.new keys) turns)).length ≤ 1) ∧
    (∀ past turned future id approved, trace App.step (App.new keys) turns = past ++ turned :: future →
      .answerSas id approved ∈ turned.out.2 →
      ∀ event ∈ events ((past ++ [turned]).map Record.input), ¬ event.closes id) ∧
    (final App.step (App.new keys) turns).sas.length ≤ 4 := by
  refine ⟨?_, ?_, ?_, ?_⟩
  · intro past turned future id hsplit hmem
    obtain ⟨htracks, hqueued, -, hturn⟩ := turn_meets h honce hsplit
    rcases hturn.answered htracks.consistent (mem_answers hmem) with ⟨key, q, qs, hkey, hqueue, hid, -, htyped⟩ | ⟨h, -⟩
    · obtain ⟨henter, hyes⟩ := htyped rfl
      refine ⟨⟨key, hkey, henter⟩, ?_⟩
      obtain ⟨pending, rest, hsas, rfl, -⟩ := List.map_eq_cons_iff.1 hqueue
      have hpending := hqueued.typed pending.question (by rw [hqueue]; exact List.mem_cons_self)
      exact ⟨pending, rest, hsas, hid, by rw [← hid]; exact hpending, hyes⟩
    · cases h
  · intro id
    have hqueued := reachable_queued keys turns h honce
    have hle := hqueued.answered id
    rw [trace_inputs] at hle
    have := honce id
    omega
  · intro past turned future id approved hsplit hmem
    obtain ⟨htracks, -, hf, hturn⟩ := turn_meets h honce hsplit
    rw [List.map_append, List.map_singleton, events_append]
    exact hturn.answered_alive htracks hf (mem_answers hmem)
  · have hle := (reachable_tracks keys turns h).1.consistent.queue_le
    rwa [App.sessions, List.length_map] at hle

open Cli.Sample Sessions in
/-- The answer that is sent on the Enter is the one typed before it. -/
theorem approvals_reach_their_connection_asking : ∃ pending rest,
    (final App.step (App.new .default) asking).sas = pending :: rest ∧ pending.id = ⟨1⟩ ∧
      pending.typed = typedFor ⟨1⟩ (trace App.step (App.new .default) asking) ∧
      isApproval pending.typed = true := by
  have honce (id : ConnId) : asked id (events chatting) ≤ 1 := by
    by_cases hid : (⟨1⟩ : ConnId) = id
    · rw [← hid]
      decide +kernel
    · show List.countP _ [_, _, _, _] ≤ 1
      simp [NetEvent.asks, hid]
  have happroves : .answerSas ⟨1⟩ true ∈
      (record App.step (final App.step (App.new .default) asking) (press .enter)).out.2 := by
    decide +kernel
  exact ((approvals_reach_their_connection .default chatting chatting_orderly honce).1 _ _ _ ⟨1⟩
    (trace_append App.step (App.new .default) asking _) happroves).2

end Ruxmsg.Cli

import Ruxmsg.Closing
import Ruxmsg.Task

namespace Ruxmsg

open Library.Machine Library.Timers

def Engine.ids (e : Engine) : List DeadlineId := e.deadlines.map Prod.fst

def unfired (ids : List DeadlineId) (input : Input) : List DeadlineId :=
  ids.filter fun id => some id ≠ input.fires

structure Engine.Timed (e : Engine) : Prop where
  shows : ∃ t, e.Shows t
  closed : e.phase = .closed → e.deadlines = []

theorem Engine.Shows.ids_eq {e : Engine} {t : Table DeadlineKind} (hs : e.Shows t) : e.ids = t.ids := by
  rw [ids, hs.deadlines_eq, Table.ids]

theorem keep_ids (t : Table DeadlineKind) (input : Input) :
    (t.keep fun entry => some entry.1 ≠ input.fires).ids = unfired t.ids input := by
  rw [Table.ids, Table.ids, unfired, List.filter_map, Table.keep]
  rfl

variable [Ciborium] [Primitives]

theorem handle_timed {e : Engine} (h : e.Timed) (input : Input) : (e.handle input).1.Timed := by
  refine ⟨handle_shows h.shows input, ?_⟩
  intro hclosed'
  by_cases hclosed : e.phase = .closed
  · rw [handle_closed hclosed]
    exact h.closed hclosed
  · have hmem := (closeTransport_mem_iff h.shows input).2 ⟨hclosed, hclosed'⟩
    exact (ends_of_mem h.shows hmem).deadlines_eq

theorem handle_ids {e : Engine} (h : e.Timed) (input : Input) :
    replay (unfired e.ids input) (commands (e.handle input).2) = (e.handle input).1.ids := by
  by_cases hclosed : e.phase = .closed
  · have hnone : e.ids = [] := by
      rw [Engine.ids, h.closed hclosed]
      rfl
    rw [handle_closed hclosed, hnone]
    rfl
  · obtain ⟨t, hs⟩ := h.shows
    obtain ⟨t', hturns⟩ := Engine.handle_turns hs hclosed input
    rw [hs.ids_eq, hturns.shows.ids_eq, ← keep_ids]
    exact hturns.leads.replay_eq

theorem handle_length {e : Engine} (h : e.Timed) (input : Input) : (e.handle input).2.length ≤ 12 := by
  by_cases hclosed : e.phase = .closed
  · rw [handle_closed hclosed]
    exact Nat.zero_le 12
  · obtain ⟨t, hs⟩ := h.shows
    obtain ⟨t', hturns⟩ := Engine.handle_turns hs hclosed input
    exact hturns.length_le

omit [Ciborium] [Primitives] in
theorem timed_kinds_nodup {e : Engine} (h : e.Timed) : (e.deadlines.map Prod.snd).Nodup := by
  obtain ⟨t, hs⟩ := h.shows
  rw [hs.deadlines_eq]
  exact t.kinds_nodup

theorem handle_unarmed {e : Engine} {id : DeadlineId} (h : id ∉ e.ids) : e.handle (.timeout id) = (e, []) := by
  by_cases hclosed : e.phase = .closed
  · exact handle_closed hclosed _
  · have hfind : e.deadlines.find? (·.1 = id) = none := by
      rw [List.find?_eq_none]
      intro entry he heq
      exact h (List.mem_map.2 ⟨entry, he, of_decide_eq_true heq⟩)
    rw [Engine.handle, if_neg hclosed]
    dsimp only
    rw [Ctx.onTimeout, hfind]

section Run

variable (role : HelloRole) (identity : IdentityKeypair) (entropy : Entropy) (limit : Nat)

theorem reachable_timed (inputs : List Input) :
    (final Engine.handle (Engine.configured role identity entropy limit) inputs).Timed := by
  refine final_invariant Engine.handle Engine.Timed (fun _ input h => handle_timed h input) ?_ inputs
  exact ⟨⟨.empty, rfl, rfl⟩, fun h => absurd h (by decide : Phase.idle ≠ .closed)⟩

def keeper (e : Engine) (ids : List DeadlineId) : List Input → List DeadlineId
  | [] => ids
  | input :: inputs =>
      keeper (e.handle input).1 (replay (unfired ids input) (commands (e.handle input).2)) inputs

theorem keeper_eq {e : Engine} (h : e.Timed) (inputs : List Input) :
    keeper e e.ids inputs = (final Engine.handle e inputs).ids := by
  induction inputs generalizing e with
  | nil => rfl
  | cons input inputs ih =>
      rw [keeper, handle_ids h input]
      exact ih (handle_timed h input)

theorem run_setIds (inputs : List Input) :
    let start := Engine.configured role identity entropy limit
    (setIds (commands ((trace Engine.handle start inputs).flatMap Record.out))).Pairwise (· < ·) := by
  intro start
  have hrun := trace_induction Engine.handle
    (fun history e => e.Timed ∧
      (∀ id ∈ setIds (commands (history.flatMap Record.out)), id < e.nextDeadline) ∧
      (setIds (commands (history.flatMap Record.out))).Pairwise (· < ·))
    start ⟨reachable_timed role identity entropy limit [], by simp [commands, setIds], .nil⟩ ?_ inputs
  · exact hrun.2.2
  · rintro history e input ⟨ht, hbelow, hascending⟩
    refine ⟨handle_timed ht input, ?_⟩
    have hset : setIds (commands ((history ++ [record Engine.handle e input]).flatMap Record.out)) =
        setIds (commands (history.flatMap Record.out)) ++ setIds (commands (e.handle input).2) := by
      rw [List.flatMap_append, List.flatMap_singleton, record_out, commands_append, setIds,
        List.filterMap_append]
      rfl
    rw [hset]
    by_cases hclosed : e.phase = .closed
    · rw [handle_closed hclosed]
      simpa [commands, setIds] using And.intro hbelow hascending
    · obtain ⟨t, hs⟩ := ht.shows
      obtain ⟨t', hturns⟩ := Engine.handle_turns hs hclosed input
      have hnext : e.nextDeadline ≤ (e.handle input).1.nextDeadline := by
        rw [hs.next_eq, hturns.shows.next_eq]
        exact hturns.leads.next_le
      constructor
      · intro id hid
        rcases List.mem_append.1 hid with hid | hid
        · exact (hbelow id hid).trans_le hnext
        · rw [hturns.shows.next_eq]
          exact (hturns.leads.fresh id hid).2
      · rw [List.pairwise_append]
        refine ⟨hascending, hturns.leads.ascending, ?_⟩
        intro a ha b hb
        have hfresh := (hturns.leads.fresh b hb).1
        exact (hbelow a ha).trans_le (hs.next_eq.trans_le hfresh)

end Run

namespace Task

def ids (task : Task) : List DeadlineId := task.deadlines.map Prod.fst

structure Idle (task task' : Task) : Prop where
  engine_eq : task'.engine = task.engine
  deadlines_eq : task'.deadlines = task.deadlines

omit [Ciborium] [Primitives] in
theorem write_idle (task : Task) (frame : Frame) : task.Idle (task.write frame) := by
  rw [write]
  split_ifs
  · exact ⟨rfl, rfl⟩
  · exact ⟨rfl, rfl⟩

omit [Ciborium] [Primitives] in
theorem emit_idle (task : Task) (event : ConnEvent) : task.Idle (task.emit event) := by
  rw [emit]
  split_ifs
  · exact ⟨rfl, rfl⟩
  · exact ⟨rfl, rfl⟩

omit [Ciborium] [Primitives] in
theorem notify_idle (task : Task) (event : Event) : task.Idle (task.notify event) := by
  have hquiet (event : ConnEvent) : task.Idle ({ task with permit := false }.emit event) := by
    have hemit := emit_idle { task with permit := false } event
    exact ⟨hemit.engine_eq, hemit.deadlines_eq⟩
  cases event with
  | established | closed => exact hquiet _
  | _ => exact emit_idle task _

omit [Ciborium] [Primitives] in
theorem Idle.performs {task task' : Task} (h : task.Idle task') :
    task'.engine = task.engine ∧ task'.ids = replay task.ids ([] : List (Command DeadlineKind)) := by
  refine ⟨h.engine_eq, ?_⟩
  rw [ids, h.deadlines_eq]
  rfl

omit [Ciborium] [Primitives] in
theorem forget_ids (task : Task) (id : DeadlineId) : (task.forget id).ids = task.ids.filter (· ≠ id) := by
  rw [ids, ids, List.filter_map, forget]
  rfl

omit [Ciborium] [Primitives] in
theorem perform_ids (task : Task) (effect : Effect) :
    (task.perform effect).engine = task.engine ∧
      (task.perform effect).ids = replay task.ids (commands [effect]) := by
  cases effect with
  | send frame =>
      rw [perform]
      split_ifs
      · exact ⟨rfl, rfl⟩
      · exact (write_idle task frame).performs
  | setDeadline id kind after =>
      refine ⟨rfl, ?_⟩
      rw [perform, ids, List.map_append]
      rfl
  | cancelDeadline id => exact ⟨rfl, forget_ids task id⟩
  | requestSas words peerIdentity => exact (emit_idle task _).performs
  | deliver content => exact (emit_idle task _).performs
  | notify event => exact (notify_idle task event).performs
  | closeTransport => exact ⟨rfl, rfl⟩

omit [Ciborium] [Primitives] in
theorem process_ids (task : Task) (effects : List Effect) :
    (task.process effects).engine = task.engine ∧
      (task.process effects).ids = replay task.ids (commands effects) := by
  induction effects generalizing task with
  | nil => exact ⟨rfl, rfl⟩
  | cons effect effects ih =>
      obtain ⟨hengine, hids⟩ := perform_ids task effect
      obtain ⟨hengine', hids'⟩ := ih (task.perform effect)
      refine ⟨hengine'.trans hengine, ?_⟩
      rw [process, List.foldl_cons, ← process, hids', hids]
      rw [← Table.replay_append, ← commands_append, List.singleton_append]

/-- A task whose timers are those of its engine. -/
structure InStep (start : Engine) (task : Task) : Prop where
  engine_eq : ∃ inputs, task.engine = final Engine.handle start inputs
  timed : task.engine.Timed
  ids_eq : task.ids = task.engine.ids

variable {start : Engine} {task : Task}

omit [Ciborium] [Primitives] in
theorem unfired_of_none {input : Input} (h : input.fires = none) (ids : List DeadlineId) :
    unfired ids input = ids := by
  apply List.filter_eq_self.2
  intro id _
  rw [h]
  rfl

theorem handle_inStep {input : Input} (hengine : ∃ inputs, task.engine = final Engine.handle start inputs)
    (ht : task.engine.Timed) (hids : task.ids = unfired task.engine.ids input) :
    InStep start (task.handle input) := by
  obtain ⟨hengine', hids'⟩ :=
    process_ids { task with engine := (task.engine.handle input).1 } (task.engine.handle input).2
  have heq : (task.handle input).engine = (task.engine.handle input).1 := hengine'
  refine ⟨?_, ?_, ?_⟩
  · obtain ⟨inputs, hinputs⟩ := hengine
    refine ⟨inputs ++ [input], ?_⟩
    rw [heq, final_append, hinputs]
    rfl
  · rw [heq]
    exact handle_timed ht input
  · rw [heq, ← handle_ids ht input, ← hids]
    exact hids'

theorem InStep.handle (h : InStep start task) {input : Input} (hfires : input.fires = none) :
    InStep start (task.handle input) :=
  handle_inStep h.engine_eq h.timed (h.ids_eq.trans (unfired_of_none hfires _).symm)

/-- After an input has been handed over, the task may still close the connection. -/
theorem apply_inStep {input : Input} (h : InStep start (task.handle input)) :
    InStep start (task.apply input) := by
  have hlost : InStep start
      (if (task.handle input).lost ∧ (task.handle input).engine.phase ≠ .closed then
        (task.handle input).handle .transportClosed else task.handle input) := by
    split_ifs
    · exact h.handle rfl
    · exact h
  rw [apply]
  split_ifs at hlost ⊢
  · exact hlost.handle rfl
  · exact hlost
  · exact hlost.handle rfl
  · exact hlost

theorem InStep.apply (h : InStep start task) {input : Input} (hfires : input.fires = none) :
    InStep start (task.apply input) :=
  apply_inStep (h.handle hfires)

/-- Firing a timer that an earlier one of the same batch may have cancelled. -/
theorem InStep.fire (h : InStep start task) (id : DeadlineId) :
    InStep start ((task.forget id).apply (.timeout id)) := by
  have hids : (task.forget id).ids = unfired task.engine.ids (.timeout id) := by
    rw [forget_ids, h.ids_eq, unfired]
    apply List.filter_congr
    intro other _
    simp [Input.fires]
  have hforget : InStep start ((task.forget id).handle (.timeout id)) :=
    handle_inStep h.engine_eq h.timed hids
  exact apply_inStep hforget

theorem InStep.fireDue (h : InStep start task) : InStep start task.fireDue := by
  have hfold (due : List (Instant × DeadlineId)) : ∀ {task : Task}, InStep start task →
      InStep start (due.foldl
        (fun task deadline => (task.forget deadline.2).apply (.timeout deadline.2)) task) := by
    induction due with
    | nil => exact fun h => h
    | cons deadline due ih =>
        intro task h
        exact ih (h.fire deadline.2)
  exact hfold _ ⟨h.engine_eq, h.timed, h.ids_eq⟩

theorem InStep.drainFrames (h : InStep start task) (decoded : List (Except DecodeError Frame)) :
    InStep start (task.drainFrames decoded) := by
  induction decoded generalizing task with
  | nil => exact h
  | cons result decoded ih =>
      rw [Task.drainFrames.eq_def]
      split_ifs
      · exact h
      · apply ih
        rcases result with ⟨⟨⟩⟩ | frame
        · exact h.apply rfl
        · exact h.apply rfl
        · exact h.apply rfl

theorem InStep.wake (h : InStep start task) (wake : Wake) : InStep start (task.wake wake) := by
  rw [Task.wake.eq_def]
  split_ifs
  · exact h
  · cases wake with
    | readEnded => exact h.apply rfl
    | read decoded => exact h.drainFrames decoded
    | message content => exact h.apply rfl
    | command command =>
        apply h.apply
        rcases command with _ | ⟨reason⟩ | _ | ⟨approved⟩
        · rfl
        · rfl
        · rfl
        · rfl
    | due => exact h.fireDue

theorem InStep.run (h : InStep start task) (wakes : List Wake) : InStep start (task.run wakes) := by
  have hfold : ∀ {task : Task}, InStep start task → InStep start (wakes.foldl Task.wake task) := by
    induction wakes with
    | nil => exact fun h => h
    | cons wake wakes ih =>
        intro task h
        exact ih (h.wake wake)
  exact hfold (h.apply rfl)

end Task

/-- Engine and driver never disagree about deadlines. -/
theorem engine_and_driver_agree (role : HelloRole) (identity : IdentityKeypair) (entropy : Entropy) (limit : Nat)
    (inputs : List Input) (i : Input) (permit : Bool) (world : World) (wakes : List Wake) :
    let start := Engine.configured role identity entropy limit
    let e := final Engine.handle start inputs
    keeper start [] inputs = e.ids ∧
    (setIds (commands ((trace Engine.handle start inputs).flatMap Record.out))).Nodup ∧
    (e.deadlines.map Prod.snd).Nodup ∧
    (∀ id, id ∉ e.ids → e.handle (.timeout id) = (e, [])) ∧
    (e.handle i).2.length ≤ 12 ∧
    (∀ task : Task, task.ids = unfired e.ids i →
      (task.process (e.handle i).2).ids = (e.handle i).1.ids) ∧
    (let task := (Task.new start permit world).run wakes
    task.ids = task.engine.ids ∧ ∃ inputs, task.engine = final Engine.handle start inputs) := by
  intro start e
  have ht := reachable_timed role identity entropy limit inputs
  have hstart : start.Timed := reachable_timed role identity entropy limit []
  refine ⟨keeper_eq hstart inputs, ?_, timed_kinds_nodup ht, fun id => handle_unarmed, handle_length ht i, ?_, ?_⟩
  · exact (run_setIds role identity entropy limit inputs).imp fun hlt => hlt.ne
  · intro task hids
    rw [(task.process_ids _).2, hids]
    exact handle_ids ht i
  · have hnew : Task.InStep start (Task.new start permit world) := ⟨⟨[], rfl⟩, hstart, rfl⟩
    have hrun := hnew.run wakes
    exact ⟨hrun.ids_eq, hrun.engine_eq⟩

end Ruxmsg

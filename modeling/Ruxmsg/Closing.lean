import Ruxmsg.Paths
import Ruxmsg.Reachable
import Mathlib.Data.List.Perm.Subperm

namespace Ruxmsg

open Library.Machine Library.Timers

def Input.fires : Input → Option DeadlineId
  | .timeout id => some id
  | _ => none

/-- No kind of timer is armed twice, so there are no more timers than kinds. -/
theorem length_entries_le (t : Table DeadlineKind) : t.entries.length ≤ 5 := by
  have hsub : t.entries.map Prod.snd ⊆ [.handshakeFrame, .sasDecision, .handshakeTotal, .rekeyDue, .drain] := by
    intro kind _
    cases kind <;> simp
  have hle := (t.kinds_nodup.subperm hsub).length_le
  rwa [List.length_map] at hle

theorem commands_append (effects effects' : List Effect) :
    commands (effects ++ effects') = commands effects ++ commands effects' :=
  List.filterMap_append

namespace Ctx

theorem release_shows {c : Ctx} {t : Table DeadlineKind} (hs : c.self.Shows t) (id : DeadlineId) :
    (c.release id).self.Shows (t.keep fun entry => entry.1 ≠ id) := by
  refine ⟨?_, hs.next_eq⟩
  rw [release, update, hs.deadlines_eq]
  exact t.eraseP_entries id

variable [Ciborium]

/-- Ending the connection cancels every timer, may tell the peer, and then
says that the connection is closed before it closes the transport. -/
theorem terminate_tracks {c : Ctx} {t : Table DeadlineKind} (hs : c.self.Shows t) (cause : CloseCause)
    (reason : Option CloseReason) :
    ∃ effects, (c.terminate cause reason).out = c.out ++ (effects ++ [.notify (.closed cause), .closeTransport]) ∧
      effects.length ≤ 6 ∧ (∀ effect ∈ effects, effect.Ongoing) ∧
      t.Leads (commands effects) (t.keep fun _ => false) := by
  have hcancel : t.Leads (commands (c.self.deadlines.map fun entry => .cancelDeadline entry.1))
      (t.keep fun _ => false) := by
    rw [commands_cancels, hs.deadlines_eq]
    simpa using t.leads_keep fun _ => false
  have hlength : (c.self.deadlines.map fun entry => Effect.cancelDeadline entry.1).length ≤ 5 := by
    rw [List.length_map, hs.deadlines_eq]
    exact length_entries_le t
  have hongoing : ∀ effect ∈ c.self.deadlines.map fun entry => Effect.cancelDeadline entry.1,
      effect.Ongoing := by
    intro effect he
    obtain ⟨entry, -, rfl⟩ := List.mem_map.1 he
    trivial
  have hout : (c.terminate cause reason).out = c.out ++
        ((c.self.deadlines.map fun entry => Effect.cancelDeadline entry.1) ++ [.notify (.closed cause), .closeTransport]) ∨
      ∃ frame, (c.terminate cause reason).out = c.out ++
        ((c.self.deadlines.map fun entry => Effect.cancelDeadline entry.1) ++ [.send frame] ++
          [.notify (.closed cause), .closeTransport]) := by
    rw [terminate.eq_def]
    cases reason with
    | none =>
        left
        simp [cancelAll, push, update]
    | some reason =>
        dsimp only
        split
        next frame _ =>
            right
            exact ⟨frame, by simp [cancelAll, push, update]⟩
        · left
          simp [cancelAll, push, update]
  obtain hout | ⟨frame, hout⟩ := hout
  · exact ⟨_, hout, hlength.trans (Nat.le_succ 5), hongoing, hcancel⟩
  · refine ⟨_, hout, ?_, ?_, ?_⟩
    · rw [List.length_append]
      exact Nat.succ_le_succ hlength
    · intro effect he
      rcases List.mem_append.1 he with he | he
      · exact hongoing effect he
      · rw [List.mem_singleton.1 he]
        trivial
    · rw [commands_append]
      exact hcancel.trans (.refl _)

end Ctx

/-- A call that ends the connection says so last, and leaves nothing behind. -/
structure Engine.Ends (effects : List Effect) (e' : Engine) : Prop where
  effects_eq : ∃ before cause, effects = before ++ [.notify (.closed cause), .closeTransport] ∧
    ∀ effect ∈ before, effect.Ongoing
  phase_eq : e'.phase = .closed
  deadlines_eq : e'.deadlines = []
  run_eq : e'.run = none
  active_eq : e'.active = none
  draining_eq : e'.draining = none

structure Engine.Turns (t : Table DeadlineKind) (input : Input) (effects : List Effect) (e' : Engine)
    (t' : Table DeadlineKind) : Prop where
  shows : e'.Shows t'
  leads : (t.keep fun entry => some entry.1 ≠ input.fires).Leads (commands effects) t'
  length_le : effects.length ≤ 12
  ends : (e'.phase ≠ .closed ∧ ∀ effect ∈ effects, effect.Ongoing) ∨ Engine.Ends effects e'

theorem Engine.entered_shows {e : Engine} {t : Table DeadlineKind} (hs : e.Shows t) (input : Input) :
    (e.entered input).self.Shows (t.keep fun entry => some entry.1 ≠ input.fires) := by
  have hsame {i : Input} (h : i.fires = none) : e.Shows (t.keep fun entry => some entry.1 ≠ i.fires) := by
    refine ⟨?_, hs.next_eq⟩
    rw [hs.deadlines_eq, Table.keep, h]
    symm
    exact List.filter_eq_self.2 fun _ _ => rfl
  cases input with
  | timeout id =>
      have hid : (e.entered (.timeout id)).self.Shows (t.keep fun entry => entry.1 ≠ id) :=
        Ctx.release_shows (c := { self := e, out := [] }) hs id
      simpa [Input.fires] using hid
  | _ => exact hsame rfl

theorem Engine.entered_out (e : Engine) (input : Input) : (e.entered input).out = [] := by
  cases input <;> rfl

theorem Engine.entered_phase (e : Engine) (input : Input) : (e.entered input).self.phase = e.phase := by
  cases input <;> rfl

variable [Ciborium] [Primitives]

theorem Engine.handle_turns {e : Engine} {t : Table DeadlineKind} (hs : e.Shows t) (h : e.phase ≠ .closed)
    (input : Input) : ∃ t', Engine.Turns t input (e.handle input).2 (e.handle input).1 t' := by
  obtain ⟨c, houtcome, hhandle⟩ := handle_outcome h input
  rw [hhandle]
  have hentered := entered_shows hs input
  have hphase : (e.entered input).self.phase ≠ .closed := by rwa [entered_phase]
  cases houtcome with
  | goesOn path =>
      obtain ⟨effects, t', htracks, hongoing, hopen⟩ := path.tracks hentered
      have hout : c.out = effects := by rw [htracks.out_eq, entered_out, List.nil_append]
      rw [← hout] at hongoing
      refine ⟨t', htracks.shows, ?_, ?_, .inl ⟨hopen hphase, hongoing⟩⟩
      · rw [hout]
        exact htracks.leads
      · rw [hout]
        exact htracks.length_le
  | @closes d path cause reason =>
      obtain ⟨effects, t', htracks, hongoing, -⟩ := path.tracks hentered
      obtain ⟨effects', hout', hlength, hongoing', hleads⟩ := Ctx.terminate_tracks htracks.shows cause reason
      have hself := Ctx.terminate_self d cause reason
      have hout : (d.terminate cause reason).out =
          effects ++ effects' ++ [.notify (.closed cause), .closeTransport] := by
        rw [hout', htracks.out_eq, entered_out, List.nil_append, List.append_assoc]
      refine ⟨t'.keep fun _ => false, ⟨?_, ?_⟩, ?_, ?_, .inr ⟨⟨_, cause, hout, ?_⟩, ?_, ?_, ?_, ?_, ?_⟩⟩
      · rw [hself]
        exact (List.filter_false t'.entries).symm
      · rw [hself]
        exact htracks.shows.next_eq
      · have hsilent : commands [.notify (.closed cause), .closeTransport] = [] := rfl
        rw [hout, commands_append, commands_append, hsilent, List.append_nil]
        exact htracks.leads.trans hleads
      · rw [hout, List.length_append, List.length_append]
        have hle := Nat.add_le_add htracks.length_le hlength
        simp only [List.length_cons, List.length_nil]
        omega
      · intro effect he
        rcases List.mem_append.1 he with he | he
        · exact hongoing effect he
        · exact hongoing' effect he
      all_goals rw [hself]

theorem handle_closed {e : Engine} (h : e.phase = .closed) (input : Input) : e.handle input = (e, []) := by
  rw [Engine.handle, if_pos h]

theorem final_closed {e : Engine} (h : e.phase = .closed) (inputs : List Input) :
    final Engine.handle e inputs = e := by
  induction inputs with
  | nil => rfl
  | cons input inputs ih =>
      rw [final_cons, handle_closed h]
      exact ih

theorem handle_shows {e : Engine} (h : ∃ t, e.Shows t) (input : Input) : ∃ t', (e.handle input).1.Shows t' := by
  obtain ⟨t, hs⟩ := h
  by_cases hclosed : e.phase = .closed
  · rw [handle_closed hclosed]
    exact ⟨t, hs⟩
  · obtain ⟨t', hturns⟩ := Engine.handle_turns hs hclosed input
    exact ⟨t', hturns.shows⟩

variable (role : HelloRole) (identity : IdentityKeypair) (entropy : Entropy) (limit : Nat)

theorem reachable_shows (inputs : List Input) :
    ∃ t, (final Engine.handle (Engine.configured role identity entropy limit) inputs).Shows t :=
  final_invariant Engine.handle (fun e => ∃ t, e.Shows t) (fun _ input hs => handle_shows hs input)
    ⟨.empty, rfl, rfl⟩ inputs

omit [Ciborium] [Primitives] in
theorem Engine.Ends.mem {effects : List Effect} {e' : Engine} (h : Engine.Ends effects e') :
    .closeTransport ∈ effects := by
  obtain ⟨before, cause, rfl, -⟩ := h.effects_eq
  exact List.mem_append_right _ (List.mem_cons_of_mem _ List.mem_cons_self)

theorem closeTransport_mem_iff {e : Engine} (hs : ∃ t, e.Shows t) (input : Input) :
    .closeTransport ∈ (e.handle input).2 ↔ e.phase ≠ .closed ∧ (e.handle input).1.phase = .closed := by
  obtain ⟨t, hs⟩ := hs
  constructor
  · intro hmem
    by_cases hclosed : e.phase = .closed
    · rw [handle_closed hclosed] at hmem
      cases hmem
    · obtain ⟨t', hturns⟩ := Engine.handle_turns hs hclosed input
      obtain ⟨-, hongoing⟩ | hends := hturns.ends
      · exact (hongoing _ hmem).elim
      · exact ⟨hclosed, hends.phase_eq⟩
  · rintro ⟨hopen, hclosed⟩
    obtain ⟨t', hturns⟩ := Engine.handle_turns hs hopen input
    obtain ⟨hstill, -⟩ | hends := hturns.ends
    · exact absurd hclosed hstill
    · exact hends.mem

theorem ends_of_mem {e : Engine} (hs : ∃ t, e.Shows t) {input : Input}
    (hmem : .closeTransport ∈ (e.handle input).2) : Engine.Ends (e.handle input).2 (e.handle input).1 := by
  obtain ⟨hopen, -⟩ := (closeTransport_mem_iff hs input).1 hmem
  obtain ⟨t, hs⟩ := hs
  obtain ⟨t', hturns⟩ := Engine.handle_turns hs hopen input
  obtain ⟨-, hongoing⟩ | hends := hturns.ends
  · exact (hongoing _ hmem).elim
  · exact hends

omit [Ciborium] [Primitives] in
theorem set_mem_commands {id : DeadlineId} {kind : DeadlineKind} {after : Nat} {effects : List Effect}
    (h : .setDeadline id kind after ∈ effects) : .set id kind ∈ commands effects :=
  List.mem_filterMap.2 ⟨_, h, rfl⟩

omit [Ciborium] [Primitives] in
theorem cancelDeadline_mem {id : DeadlineId} {effects : List Effect}
    (h : .cancel id ∈ commands effects) : .cancelDeadline id ∈ effects := by
  obtain ⟨effect, he, heq⟩ := List.mem_filterMap.1 h
  cases effect with
  | cancelDeadline id' =>
      obtain rfl : id' = id := Command.cancel.inj (Option.some.inj heq)
      exact he
  | _ => cases heq

theorem cancelled_of_mem {e : Engine} (hs : ∃ t, e.Shows t) {input : Input}
    (hmem : .closeTransport ∈ (e.handle input).2) {id : DeadlineId}
    (harmed : id ∈ e.deadlines.map Prod.fst ∨ ∃ kind after, .setDeadline id kind after ∈ (e.handle input).2) :
    input = .timeout id ∨ .cancelDeadline id ∈ (e.handle input).2 := by
  have hends := ends_of_mem hs hmem
  obtain ⟨hopen, -⟩ := (closeTransport_mem_iff hs input).1 hmem
  obtain ⟨t, hs⟩ := hs
  obtain ⟨t', hturns⟩ := Engine.handle_turns hs hopen input
  have hnone : t'.ids = [] := by
    rw [Table.ids, ← hturns.shows.deadlines_eq, hends.deadlines_eq]
    rfl
  have hgone : id ∉ replay (t.keep fun entry => some entry.1 ≠ input.fires).ids
      (commands (e.handle input).2) := by
    rw [hturns.leads.replay_eq, hnone]
    exact List.not_mem_nil
  rcases harmed with harmed | ⟨kind, after, hset⟩
  · by_cases hfires : input.fires = some id
    · left
      cases input with
      | timeout id' => rw [Option.some.inj hfires]
      | _ => cases hfires
    · right
      rw [hs.deadlines_eq] at harmed
      obtain ⟨entry, he, rfl⟩ := List.mem_map.1 harmed
      have hkept : entry.1 ∈ (t.keep fun entry => some entry.1 ≠ input.fires).ids := by
        refine List.mem_map_of_mem (List.mem_filter.2 ⟨he, ?_⟩)
        exact decide_eq_true (Ne.symm hfires)
      exact cancelDeadline_mem (Table.cancel_mem_of_replay hkept hgone)
  · right
    exact cancelDeadline_mem (Table.cancel_mem_of_set (set_mem_commands hset) hgone)

/-- Over a whole run the connection is closed at most once, and nothing follows it. -/
theorem run_ends (inputs : List Input) :
    let start := Engine.configured role identity entropy limit
    let effects := (trace Engine.handle start inputs).flatMap Record.out
    ((final Engine.handle start inputs).phase ≠ .closed ∧ ∀ effect ∈ effects, effect.Ongoing) ∨
      ((final Engine.handle start inputs).phase = .closed ∧
        ∃ before cause, effects = before ++ [.notify (.closed cause), .closeTransport] ∧
          ∀ effect ∈ before, effect.Ongoing) := by
  intro start
  have hrun := trace_induction Engine.handle
    (fun history e => (∃ t, e.Shows t) ∧
      ((e.phase ≠ .closed ∧ ∀ effect ∈ history.flatMap Record.out, effect.Ongoing) ∨
        (e.phase = .closed ∧ ∃ before cause,
          history.flatMap Record.out = before ++ [.notify (.closed cause), .closeTransport] ∧
            ∀ effect ∈ before, effect.Ongoing)))
    start ⟨⟨.empty, rfl, rfl⟩, .inl ⟨(by decide : Phase.idle ≠ .closed), by simp⟩⟩ ?_ inputs
  · exact hrun.2
  · rintro history e input ⟨hs, hcase⟩
    refine ⟨handle_shows hs input, ?_⟩
    rw [List.flatMap_append, List.flatMap_singleton, record_out]
    rcases hcase with ⟨hopen, hongoing⟩ | ⟨hclosed, hended⟩
    · obtain ⟨t, hs⟩ := hs
      obtain ⟨t', hturns⟩ := Engine.handle_turns hs hopen input
      rcases hturns.ends with ⟨hstill, hongoing'⟩ | hends
      · left
        refine ⟨hstill, ?_⟩
        intro effect he
        rcases List.mem_append.1 he with he | he
        · exact hongoing effect he
        · exact hongoing' effect he
      · right
        obtain ⟨before, cause, hout, hbefore⟩ := hends.effects_eq
        refine ⟨hends.phase_eq, history.flatMap Record.out ++ before, cause, ?_, ?_⟩
        · rw [hout, List.append_assoc]
        · intro effect he
          rcases List.mem_append.1 he with he | he
          · exact hongoing effect he
          · exact hbefore effect he
    · right
      rw [handle_closed hclosed, List.append_nil]
      exact ⟨hclosed, hended⟩

/-- Closing is final, ordered and total. -/
theorem closing_is_final (inputs : List Input) (i : Input) :
    let start := Engine.configured role identity entropy limit
    let e := final Engine.handle start inputs
    let e' := (e.handle i).1
    let effects := (e.handle i).2
    (.closeTransport ∈ effects ↔ e.phase ≠ .closed ∧ e'.phase = .closed) ∧
    (.closeTransport ∈ effects →
      (∃ before cause, effects = before ++ [.notify (.closed cause), .closeTransport] ∧
        ∀ effect ∈ before, effect.Ongoing) ∧
      (∀ id, (id ∈ e.deadlines.map Prod.fst ∨ ∃ kind after, .setDeadline id kind after ∈ effects) →
        i = .timeout id ∨ .cancelDeadline id ∈ effects) ∧
      e'.deadlines = [] ∧ e'.run = none ∧ e'.active = none ∧ e'.draining = none ∧
      ∀ later j, (final Engine.handle e' later).handle j = (e', [])) ∧
    (e.phase = .closed → e.handle i = (e, [])) ∧
    (let all := (trace Engine.handle start inputs).flatMap Record.out
    (∀ effect ∈ all, effect.Ongoing) ∨
      ∃ before cause, all = before ++ [.notify (.closed cause), .closeTransport] ∧
        ∀ effect ∈ before, effect.Ongoing) := by
  intro start e e' effects
  have hs := reachable_shows role identity entropy limit inputs
  refine ⟨closeTransport_mem_iff hs i, ?_, fun h => handle_closed h i, ?_⟩
  · intro hmem
    have hends := ends_of_mem hs hmem
    refine ⟨hends.effects_eq, fun id => cancelled_of_mem hs hmem, hends.deadlines_eq, hends.run_eq,
      hends.active_eq, hends.draining_eq, ?_⟩
    intro later j
    rw [final_closed hends.phase_eq, handle_closed hends.phase_eq]
  · obtain ⟨-, hall⟩ | ⟨-, hall⟩ := run_ends role identity entropy limit inputs
    · exact .inl hall
    · exact .inr hall

end Ruxmsg

import Ruxmsg.Exchange
import Ruxmsg.Reports

namespace Ruxmsg

open Library.Machine Library.Grammar

/-- The events that give the permit back. -/
def ConnEvent.settles : ConnEvent → Bool
  | .established _ | .closed _ => true
  | _ => false

deriving instance DecidableEq for Control

def Input.isSend : Input → Bool
  | .localSend _ => true
  | _ => false

def Input.isOrder : Input → Bool
  | .sasDecision _ | .requestRekey | .localClose _ => true
  | _ => false

/-- The inputs that stand for something the user wants. -/
def Input.commanded (input : Input) : Bool := input.isSend || input.isOrder

def Control.input : Control → Input
  | .close reason => .localClose reason
  | .requestRekey => .requestRekey
  | .sas approved => .sasDecision approved

/-- What a wake hands to the engine on behalf of the user. -/
def Wake.commands : Wake → List Input
  | .message content => [.localSend content]
  | .command (some control) => [control.input]
  | .command none => [.localClose .shutdown]
  | .readEnded | .read _ | .due => []

def Engine.outputs [Ciborium] [Primitives] (e : Engine) (inputs : List Input) : List Effect :=
  (trace Engine.handle e inputs).flatMap Record.out

namespace Task

structure Performs (effects : List Effect) (task task' : Task) : Prop where
  engine_eq : task'.engine = task.engine
  written : ∃ more, task'.written = task.written ++ more ∧ more <+: effects.filterMap Effect.frame? ∧
    (task'.lost = false → more = effects.filterMap Effect.frame?) ∧ (task.lost = true → more = [])
  lost : task.lost = true → task'.lost = true
  events : ∃ more, task'.events = task.events ++ more ∧ more.Sublist (reports effects) ∧
    (task'.orphaned = false → more = reports effects)
  orphaned : task.orphaned = true → task'.orphaned = true
  closing : task'.closing = true ↔ task.closing = true ∨ .closeTransport ∈ effects
  permit : task'.permit = (task.permit && !(reports effects).any ConnEvent.settles)

variable {task task' task'' : Task} {effects effects' : List Effect}

theorem Performs.refl (task : Task) : Performs [] task task where
  engine_eq := rfl
  written := ⟨[], by simp, List.prefix_rfl, fun _ => rfl, fun _ => rfl⟩
  lost := id
  events := ⟨[], by simp, List.Sublist.refl [], fun _ => rfl⟩
  orphaned := id
  closing := by simp
  permit := by simp

theorem Performs.trans (h : Performs effects task task') (h' : Performs effects' task' task'') :
    Performs (effects ++ effects') task task'' where
  engine_eq := h'.engine_eq.trans h.engine_eq
  written := by
    obtain ⟨more, hmore, hprefix, hall, hnone⟩ := h.written
    obtain ⟨more', hmore', hprefix', hall', hnone'⟩ := h'.written
    have hframes : (effects ++ effects').filterMap Effect.frame? =
        effects.filterMap Effect.frame? ++ effects'.filterMap Effect.frame? := List.filterMap_append
    refine ⟨more ++ more', by rw [hmore', hmore, List.append_assoc], ?_, ?_, ?_⟩
    · rw [hframes]
      cases hlost : task'.lost with
      | true =>
          rw [hnone' hlost, List.append_nil]
          exact hprefix.trans (List.prefix_append ..)
      | false =>
          rw [hall hlost]
          exact (List.prefix_append_right_inj _).2 hprefix'
    · intro hkept
      have hkept' : task'.lost = false := by
        cases hlost : task'.lost with
        | true => exact (h'.lost hlost).symm.trans hkept
        | false => rfl
      rw [hframes, hall hkept', hall' hkept]
    · intro hlost
      rw [hnone hlost, hnone' (h.lost hlost), List.append_nil]
  lost := fun hlost => h'.lost (h.lost hlost)
  events := by
    obtain ⟨more, hmore, hsub, hall⟩ := h.events
    obtain ⟨more', hmore', hsub', hall'⟩ := h'.events
    refine ⟨more ++ more', by rw [hmore', hmore, List.append_assoc], ?_, ?_⟩
    · rw [reports_append]
      exact hsub.append hsub'
    · intro hheard
      have hheard' : task'.orphaned = false := by
        cases horphaned : task'.orphaned with
        | true => exact (h'.orphaned horphaned).symm.trans hheard
        | false => rfl
      rw [reports_append, hall hheard', hall' hheard]
  orphaned := fun horphaned => h'.orphaned (h.orphaned horphaned)
  closing := by rw [h'.closing, h.closing, List.mem_append, or_assoc]
  permit := by
    rw [h'.permit, h.permit, reports_append, List.any_append, Bool.not_or, Bool.and_assoc]

theorem emit_performs (task : Task) (effect : Effect) (event : ConnEvent) (hreport : effect.report = some event)
    (hframes : [effect].filterMap Effect.frame? = []) (hclose : effect ≠ .closeTransport) :
    Performs [effect] task ({ task with permit := task.permit && !event.settles }.emit event) := by
  have hreports : reports [effect] = [event] := List.filterMap_cons_some hreport
  have hclosing : task.closing = true ↔ task.closing = true ∨ .closeTransport ∈ [effect] := by
    simp [hclose.symm]
  rw [emit]
  split
  · refine ⟨rfl, ⟨[], by simp, by simp, fun _ => hframes.symm, fun _ => rfl⟩, id, ⟨[event], rfl, ?_, ?_⟩, id,
      hclosing, ?_⟩
    · rw [hreports]
    · exact fun _ => hreports.symm
    · rw [hreports, List.any_cons, List.any_nil, Bool.or_false]
  · refine ⟨rfl, ⟨[], by simp, by simp, fun _ => hframes.symm, fun _ => rfl⟩, id, ⟨[], by simp, by simp, by simp⟩,
      fun _ => rfl, hclosing, ?_⟩
    rw [hreports, List.any_cons, List.any_nil, Bool.or_false]

theorem perform_performs (task : Task) (effect : Effect) : Performs [effect] task (task.perform effect) := by
  have hkept {event : ConnEvent} (h : event.settles = false) :
      { task with permit := task.permit && !event.settles } = task := by
    rw [h, Bool.not_false, Bool.and_true]
  cases effect with
  | send frame =>
      rw [perform]
      split_ifs with hlost
      · refine ⟨rfl, ⟨[], by simp, by simp, ?_, fun _ => rfl⟩, id, ⟨[], by simp, by simp, fun _ => rfl⟩, id, by simp, ?_⟩
        · exact fun h => absurd (h.symm.trans (by simpa using hlost)) (by simp)
        · simp
      · have hlost : task.lost = false := by simpa using hlost
        rw [write]
        split
        · exact ⟨rfl, ⟨[frame], rfl, List.prefix_rfl, fun _ => rfl, fun h => absurd (h.symm.trans hlost) (by simp)⟩,
            id, ⟨[], by simp, by simp, fun _ => rfl⟩, id, by simp, by simp⟩
        · exact ⟨rfl, ⟨[], by simp, by simp, by simp, fun _ => rfl⟩, fun _ => rfl,
            ⟨[], by simp, by simp, fun _ => rfl⟩, id, by simp, by simp⟩
  | setDeadline | cancelDeadline =>
      exact ⟨rfl, ⟨[], by simp [perform, forget], List.prefix_rfl, fun _ => rfl, fun _ => rfl⟩, id,
        ⟨[], by simp [perform, forget], List.Sublist.refl [], fun _ => rfl⟩, id, by simp [perform, forget],
        by simp [perform, forget, reports, Effect.report]⟩
  | closeTransport =>
      exact ⟨rfl, ⟨[], by simp [perform], List.prefix_rfl, fun _ => rfl, fun _ => rfl⟩, id,
        ⟨[], by simp [perform], List.Sublist.refl [], fun _ => rfl⟩, id, by simp [perform], by simp [perform]⟩
  | requestSas words peer =>
      have h := emit_performs task (.requestSas words peer) (.sasRequired words peer) rfl rfl (by simp)
      rwa [hkept rfl] at h
  | deliver content =>
      have h := emit_performs task (.deliver content) (.message content) rfl rfl (by simp)
      rwa [hkept rfl] at h
  | notify event =>
      have h := emit_performs task (.notify event) event.report rfl rfl (by simp)
      cases event with
      | established | closed =>
          rw [ConnEvent.settles.eq_def] at h
          rw [Event.report, Bool.not_true, Bool.and_false] at h
          exact h
      | rekeyStarted | rekeyCompleted | rekeyFailed | dataRejected | sendRejected =>
          rwa [hkept rfl] at h

theorem process_performs (task : Task) (effects : List Effect) : Performs effects task (task.process effects) := by
  induction effects generalizing task with
  | nil => exact .refl task
  | cons effect effects ih => exact (perform_performs task effect).trans (ih (task.perform effect))

variable [Ciborium] [Primitives]

/-- A task against the inputs that its engine has been given. -/
structure Follows (start : Engine) (permit : Bool) (inputs : List Input) (task : Task) : Prop where
  engine_eq : task.engine = final Engine.handle start inputs
  fits : task.engine.Fits
  shows : ∃ t, task.engine.Shows t
  written : task.written <+: (start.outputs inputs).filterMap Effect.frame?
  sent : task.lost = false → task.written = (start.outputs inputs).filterMap Effect.frame?
  events : task.events.Sublist (reports (start.outputs inputs))
  heard : task.orphaned = false → task.events = reports (start.outputs inputs)
  stage : ∃ stage, reads Stage.next .handshaking (reports (start.outputs inputs)) = some stage ∧
    task.engine.Reached stage
  closing : task.closing = true ↔ task.engine.phase = .closed
  permit : task.permit = (permit && !(reports (start.outputs inputs)).any ConnEvent.settles)

/-- What an engine has been given on behalf of the user: some commands, and at
most, without a close among them, a shutdown once nobody is left to tell. -/
def Hands (task : Task) (inputs commands : List Input) : Prop :=
  inputs.filter Input.commanded = commands ∨
    inputs.filter Input.commanded = commands ++ [.localClose .shutdown] ∧
      (∀ reason, .localClose reason ∉ commands) ∧ task.orphaned = true ∧ task.closing = true

/-- The wakes that find a task still open. -/
def taken (task : Task) : List Wake → List Wake
  | [] => []
  | wake :: wakes => if task.closing then [] else wake :: (task.wake wake).taken wakes

/-- Between two wakes a task whose transport or consumer is gone has closed. -/
def Settled (task : Task) : Prop := task.lost = true ∨ task.orphaned = true → task.closing = true

variable {start : Engine} {permit : Bool} {inputs : List Input}

theorem outputs_append (e : Engine) (inputs more : List Input) :
    e.outputs (inputs ++ more) = e.outputs inputs ++ (final Engine.handle e inputs).outputs more := by
  rw [Engine.outputs, trace_append, List.flatMap_append]
  rfl

theorem Follows.handle (h : Follows start permit inputs task) (input : Input) :
    Follows start permit (inputs ++ [input]) (task.handle input) := by
  have hperforms := process_performs { task with engine := (task.engine.handle input).1 } (task.engine.handle input).2
  change Performs _ { task with engine := (task.engine.handle input).1 } (task.handle input) at hperforms
  have hengine : (task.handle input).engine = (task.engine.handle input).1 := hperforms.engine_eq
  have hout : start.outputs (inputs ++ [input]) = start.outputs inputs ++ (task.engine.handle input).2 := by
    rw [outputs_append, ← h.engine_eq]
    exact congrArg _ (List.flatMap_singleton ..)
  obtain ⟨frames, hframes, hprefix, hall, hnone⟩ := hperforms.written
  obtain ⟨heard, hheard, hsub, hevery⟩ := hperforms.events
  have hlost (hkept : (task.handle input).lost = false) : task.lost = false := by
    cases hlost : task.lost with
    | true => exact (hperforms.lost hlost).symm.trans hkept
    | false => rfl
  have horphaned (hkept : (task.handle input).orphaned = false) : task.orphaned = false := by
    cases horphaned : task.orphaned with
    | true => exact (hperforms.orphaned horphaned).symm.trans hkept
    | false => rfl
  have hwritten : (task.handle input).written = task.written ++ frames := hframes
  have hevents : (task.handle input).events = task.events ++ heard := hheard
  refine
    { engine_eq := ?_
      fits := ?_
      shows := ?_
      written := ?_
      sent := ?_
      events := ?_
      heard := ?_
      stage := ?_
      closing := ?_
      permit := ?_ }
  · rw [hengine, final_append, ← h.engine_eq]
    rfl
  · rw [hengine]
    exact handle_fits h.fits input
  · rw [hengine]
    exact handle_shows h.shows input
  · rw [hwritten, hout, List.filterMap_append]
    cases hlost : task.lost with
    | true =>
        rw [hnone hlost, List.append_nil]
        exact h.written.trans (List.prefix_append ..)
    | false =>
        rw [h.sent hlost]
        exact (List.prefix_append_right_inj _).2 hprefix
  · intro hkept
    rw [hwritten, hout, List.filterMap_append, h.sent (hlost hkept), hall hkept]
  · rw [hevents, hout, reports_append]
    exact h.events.append hsub
  · intro hkept
    rw [hevents, hout, reports_append, h.heard (horphaned hkept), hevery hkept]
  · obtain ⟨stage, hreads, hreached⟩ := h.stage
    obtain ⟨stage', hreads', hreached'⟩ := handle_leads h.fits hreached input
    refine ⟨stage', ?_, by rw [hengine]; exact hreached'⟩
    rw [hout, reports_append]
    exact reads_append_some Stage.next hreads hreads'
  · rw [hperforms.closing, h.closing, closeTransport_mem_iff h.shows, hengine]
    by_cases hclosed : task.engine.phase = .closed
    · simp [hclosed, handle_closed]
    · simp [hclosed]
  · rw [hperforms.permit, h.permit, hout, reports_append, List.any_append, Bool.not_or, Bool.and_assoc]

theorem Follows.handle_if (h : Follows start permit inputs task) (p : Prop) [Decidable p] (input : Input) :
    Follows start permit (inputs ++ if p then [input] else []) (if p then task.handle input else task) := by
  split
  · exact h.handle input
  · rwa [List.append_nil]

omit [Ciborium] [Primitives] in
theorem terminate_phase [Ciborium] (c : Ctx) (cause : CloseCause) (notifyPeer : Option CloseReason) :
    (c.terminate cause notifyPeer).self.phase = .closed := rfl

theorem handle_transportClosed (e : Engine) : (e.handle .transportClosed).1.phase = .closed := by
  by_cases hclosed : e.phase = .closed
  · rw [handle_closed hclosed]
    exact hclosed
  · rw [Engine.handle, if_neg hclosed]
    rfl

theorem handle_localClose (e : Engine) (reason : CloseReason) :
    (e.handle (.localClose reason)).1.phase = .closed := by
  by_cases hclosed : e.phase = .closed
  · rw [handle_closed hclosed]
    exact hclosed
  · rw [Engine.handle, if_neg hclosed]
    rfl

theorem final_localClose {e : Engine} {inputs : List Input} {reason : CloseReason} (h : .localClose reason ∈ inputs) :
    (final Engine.handle e inputs).phase = .closed := by
  obtain ⟨before, after, rfl⟩ := List.append_of_mem h
  have hclosed := handle_localClose (final Engine.handle e before) reason
  rw [final_append, final_cons, final_closed hclosed]
  exact hclosed

theorem handle_performs (task : Task) (input : Input) :
    Performs (task.engine.handle input).2 { task with engine := (task.engine.handle input).1 } (task.handle input) :=
  process_performs ..

theorem handle_engine (task : Task) (input : Input) :
    (task.handle input).engine = (task.engine.handle input).1 :=
  (handle_performs task input).engine_eq

theorem apply_closed (hclosed : task.engine.phase = .closed) (input : Input) : task.apply input = task := by
  have hkept : task.handle input = task := by
    rw [Task.handle, handle_closed hclosed]
    rfl
  have hfirst : (if task.lost ∧ task.engine.phase ≠ .closed then task.handle .transportClosed else task) = task :=
    if_neg fun h => h.2 hclosed
  rw [Task.apply, hkept, hfirst, if_neg fun h => h.2 hclosed]

/-- An input, and what the task adds once its transport or consumer is gone. -/
theorem Follows.apply (h : Follows start permit inputs task) (input : Input) :
    ∃ more, Follows start permit (inputs ++ more) (task.apply input) ∧ (task.apply input).Settled ∧
      Hands (task.apply input) more ([input].filter Input.commanded) := by
  have hfirst := h.handle input
  rw [Task.apply]
  generalize task.handle input = first at hfirst ⊢
  have hsecond := hfirst.handle_if (first.lost ∧ first.engine.phase ≠ .closed) .transportClosed
  have hlost : (if first.lost ∧ first.engine.phase ≠ .closed then first.handle .transportClosed else first).engine.phase ≠
      .closed → (if first.lost ∧ first.engine.phase ≠ .closed then first.handle .transportClosed else first).lost = false := by
    split_ifs with hgone
    · intro hopen
      rw [handle_engine] at hopen
      exact absurd (handle_transportClosed _) hopen
    · intro hopen
      simpa [hopen] using hgone
  have hquiet : (if first.lost ∧ first.engine.phase ≠ .closed then [Input.transportClosed] else []).filter
      Input.commanded = [] := by
    split <;> rfl
  generalize (if first.lost ∧ first.engine.phase ≠ .closed then first.handle .transportClosed else first) = second
    at hsecond hlost ⊢
  generalize (if first.lost ∧ first.engine.phase ≠ .closed then [Input.transportClosed] else []) = more
    at hsecond hquiet
  have hthird := hsecond.handle_if (second.orphaned ∧ second.engine.phase ≠ .closed) (.localClose .shutdown)
  rw [List.append_assoc, List.append_assoc] at hthird
  refine ⟨_, hthird, ?_, ?_⟩
  · intro hgone
    rw [hthird.closing]
    split_ifs at hgone ⊢ with horphaned
    · rw [handle_engine]
      exact handle_localClose _ _
    · by_contra hopen
      rw [not_and, not_not] at horphaned
      rcases hgone with hgone | hgone
      · cases (hlost hopen).symm.trans hgone
      · exact hopen (horphaned hgone)
  · rw [Hands, List.filter_append, List.filter_append, hquiet, List.nil_append, hthird.closing]
    split_ifs with horphaned
    · refine .inr ⟨rfl, ?_, ?_, ?_⟩
      · intro reason hmem
        obtain rfl := List.mem_singleton.1 (List.mem_of_mem_filter hmem)
        apply horphaned.2
        rw [hsecond.engine_eq]
        exact final_localClose (List.mem_append_left _ (List.mem_append_right _ (List.mem_singleton_self _)))
      · exact (handle_performs second (.localClose .shutdown)).orphaned horphaned.1
      · rw [handle_engine]
        exact handle_localClose _ _
    · exact .inl (List.append_nil _)

theorem Follows.closes (h : Follows start permit inputs task) {input : Input}
    (hcloses : ∀ e : Engine, (e.handle input).1.phase = .closed) : (task.apply input).closing = true := by
  have hphase : (task.handle input).engine.phase = .closed := by
    rw [handle_engine]
    exact hcloses task.engine
  rw [Task.apply]
  simp only [hphase, ne_eq, not_true_eq_false, and_false, if_false]
  exact (h.handle input).closing.2 hphase

/-- A task that has been given some inputs and then, on behalf of the user, some
commands. -/
def Heeds (task : Task) (start : Engine) (permit : Bool) (inputs commands : List Input) : Prop :=
  ∃ more, Follows start permit (inputs ++ more) task ∧ task.Settled ∧ task.Hands more commands

variable {commands : List Input}

theorem Follows.heeds (h : Follows start permit inputs task) (hsettled : task.Settled) :
    task.Heeds start permit inputs [] :=
  ⟨[], by rwa [List.append_nil], hsettled, .inl rfl⟩

theorem Heeds.apply (h : task.Heeds start permit inputs commands) {input : Input}
    (hopen : task.closing = true → input.commanded = false) :
    (task.apply input).Heeds start permit inputs (commands ++ [input].filter Input.commanded) := by
  obtain ⟨more, hfollows, hsettled, hhands⟩ := h
  cases hclosing : task.closing with
  | true =>
      rw [apply_closed (hfollows.closing.1 hclosing), List.filter_cons, hopen hclosing, List.filter_nil]
      exact ⟨more, hfollows, hsettled, by simpa using hhands⟩
  | false =>
      have hmore : more.filter Input.commanded = commands := by
        rcases hhands with h | ⟨-, -, -, h⟩
        · exact h
        · cases hclosing.symm.trans h
      obtain ⟨more', happly, hsettled', hhands'⟩ := hfollows.apply input
      refine ⟨more ++ more', by rwa [← List.append_assoc], hsettled', ?_⟩
      rw [Hands, List.filter_append, hmore, List.append_assoc]
      rcases hhands' with h | ⟨h, hgone⟩
      · exact .inl (congrArg _ h)
      · obtain ⟨hnone, hgone⟩ := hgone
        refine .inr ⟨congrArg _ h, ?_, hgone⟩
        intro reason hmem
        rcases List.mem_append.1 hmem with hmem | hmem
        · rw [← hmore] at hmem
          have hclosed : task.engine.phase = .closed := by
            rw [hfollows.engine_eq]
            exact final_localClose (List.mem_append_right _ (List.mem_of_mem_filter hmem))
          cases hclosing.symm.trans (hfollows.closing.2 hclosed)
        · exact hnone reason hmem

theorem Heeds.apply_quiet (h : task.Heeds start permit inputs commands) {input : Input}
    (hquiet : input.commanded = false) : (task.apply input).Heeds start permit inputs commands := by
  have happly := h.apply fun _ => hquiet
  rwa [List.filter_cons, hquiet, List.filter_nil, if_neg Bool.false_ne_true, List.append_nil] at happly

theorem Heeds.drainFrames (h : task.Heeds start permit inputs commands) (decoded : List (Except DecodeError Frame)) :
    (task.drainFrames decoded).Heeds start permit inputs commands := by
  induction decoded generalizing task with
  | nil => exact h
  | cons result decoded ih =>
      rw [Task.drainFrames.eq_def]
      split_ifs
      · exact h
      · apply ih
        rcases result with ⟨⟨⟩⟩ | frame <;> exact h.apply_quiet rfl

theorem Heeds.fireDue (h : task.Heeds start permit inputs commands) :
    task.fireDue.Heeds start permit inputs commands := by
  have hfold (due : List (Instant × DeadlineId)) : ∀ {task : Task}, task.Heeds start permit inputs commands →
      (due.foldl (fun task deadline => (task.forget deadline.2).apply (.timeout deadline.2)) task).Heeds
        start permit inputs commands := by
    induction due with
    | nil => exact id
    | cons deadline due ih =>
        rintro task ⟨more, hfollows, hsettled, hhands⟩
        apply ih
        have hforget : (task.forget deadline.2).Heeds start permit inputs commands :=
          ⟨more, { hfollows with }, hsettled, hhands⟩
        exact hforget.apply_quiet rfl
  obtain ⟨more, hfollows, hsettled, hhands⟩ := h
  have hclock : { task with questions := task.questions + 1 }.Heeds start permit inputs commands :=
    ⟨more, { hfollows with }, hsettled, hhands⟩
  exact hfold _ hclock

/-- A wake hands the engine its own command, if it is one, and nothing else that
only the user can say. -/
theorem Heeds.wake (h : task.Heeds start permit inputs commands) (hopen : task.closing = false) (wake : Wake) :
    (task.wake wake).Heeds start permit inputs (commands ++ wake.commands) := by
  have hcommand (input : Input) :
      (task.apply input).Heeds start permit inputs (commands ++ [input].filter Input.commanded) :=
    h.apply fun hclosing => by cases hopen.symm.trans hclosing
  rw [Task.wake.eq_def]
  rw [if_neg (by simp [hopen])]
  cases wake with
  | readEnded => exact hcommand .transportClosed
  | read decoded => simpa [Wake.commands] using h.drainFrames decoded
  | message content => exact hcommand (.localSend content)
  | command command =>
      rcases command with _ | ⟨reason⟩ | _ | ⟨approved⟩
      · exact hcommand (.localClose .shutdown)
      · exact hcommand (.localClose reason)
      · exact hcommand .requestRekey
      · exact hcommand (.sasDecision approved)
  | due => simpa [Wake.commands] using h.fireDue

section Keeps

variable {P : Task → Prop} (hhandle : ∀ task input, P task → P (task.handle input))

include hhandle

theorem apply_keeps (h : P task) (input : Input) : P (task.apply input) := by
  have hfirst := hhandle task input h
  rw [Task.apply]
  generalize task.handle input = first at hfirst ⊢
  have hsecond : P (if first.lost ∧ first.engine.phase ≠ .closed then first.handle .transportClosed else first) := by
    split_ifs
    · exact hhandle _ _ hfirst
    · exact hfirst
  split_ifs at hsecond ⊢
  · exact hhandle _ _ hsecond
  · exact hsecond
  · exact hhandle _ _ hsecond
  · exact hsecond

theorem drainFrames_keeps (h : P task) (decoded : List (Except DecodeError Frame)) : P (task.drainFrames decoded) := by
  induction decoded generalizing task with
  | nil => exact h
  | cons result decoded ih =>
      rw [Task.drainFrames.eq_def]
      split_ifs
      · exact h
      · exact ih (apply_keeps hhandle h _)

/-- What a call of the engine and its effects keep, a wake keeps. -/
theorem wake_keeps (hforget : ∀ task id, P task → P (task.forget id))
    (hclock : ∀ (task : Task) questions, P task → P { task with questions }) (h : P task) (wake : Wake) :
    P (task.wake wake) := by
  rw [Task.wake.eq_def]
  split_ifs
  · exact h
  · cases wake with
    | readEnded | message | command => exact apply_keeps hhandle h _
    | read decoded => exact drainFrames_keeps hhandle h decoded
    | due =>
        have hfold (due : List (Instant × DeadlineId)) : ∀ {task : Task}, P task → P (due.foldl
            (fun task deadline => (task.forget deadline.2).apply (.timeout deadline.2)) task) := by
          induction due with
          | nil => exact fun h => h
          | cons deadline due ih => exact fun h => ih (apply_keeps hhandle (hforget _ _ h) _)
        exact hfold _ (hclock _ _ h)

end Keeps

structure Later (task task' : Task) : Prop where
  events : task.events <+: task'.events
  permit : task'.permit = true → task.permit = true

theorem handle_later (h : Later task task') (input : Input) : Later task (task'.handle input) := by
  have hperforms := handle_performs task' input
  obtain ⟨more, hmore, -⟩ := hperforms.events
  constructor
  · rw [hmore]
    exact h.events.trans (List.prefix_append ..)
  · rw [hperforms.permit, Bool.and_eq_true]
    exact fun hpermit => h.permit hpermit.1

theorem apply_later (task : Task) (input : Input) : Later task (task.apply input) :=
  apply_keeps (P := Later task) (fun _ input h => handle_later h input) ⟨List.prefix_rfl, id⟩ input

theorem wake_later (task : Task) (wake : Wake) : Later task (task.wake wake) :=
  wake_keeps (P := Later task) (fun _ input h => handle_later h input) (fun _ _ h => ⟨h.events, h.permit⟩)
    (fun _ _ h => ⟨h.events, h.permit⟩) ⟨List.prefix_rfl, id⟩ wake

omit [Ciborium] [Primitives] in
theorem new_settled (start : Engine) (permit : Bool) (world : World) : (Task.new start permit world).Settled := by
  rintro (h | h) <;> cases h

theorem new_follows (role : HelloRole) (identity : IdentityKeypair) (entropy : Entropy) (limit : Nat) (permit : Bool)
    (world : World) :
    Follows (Engine.configured role identity entropy limit) permit []
      (Task.new (Engine.configured role identity entropy limit) permit world) where
  engine_eq := rfl
  fits := Engine.configured_fits ..
  shows := ⟨.empty, rfl, rfl⟩
  written := List.nil_prefix
  sent := fun _ => rfl
  events := List.Sublist.refl []
  heard := fun _ => rfl
  stage := ⟨.handshaking, rfl, configured_reached ..⟩
  closing := by simp [Task.new, Engine.configured, Engine.new, Engine.setRekeyMessageLimit]
  permit := by simp [Task.new, Engine.outputs, trace]

theorem wakes_closing (hclosing : task.closing = true) (wakes : List Wake) : wakes.foldl Task.wake task = task := by
  induction wakes with
  | nil => rfl
  | cons wake wakes ih =>
      have hkept : task.wake wake = task := if_pos hclosing
      rw [List.foldl_cons, hkept]
      exact ih

theorem taken_prefix (task : Task) (wakes : List Wake) : task.taken wakes <+: wakes := by
  induction wakes generalizing task with
  | nil => exact List.prefix_rfl
  | cons wake wakes ih =>
      rw [taken]
      split_ifs
      · exact List.nil_prefix
      · exact (List.prefix_cons_inj wake).2 (ih (task.wake wake))

theorem taken_eq (wakes : List Wake) (hopen : (wakes.foldl Task.wake task).closing = false) :
    task.taken wakes = wakes := by
  induction wakes generalizing task with
  | nil => rfl
  | cons wake wakes ih =>
      have hstill : task.closing = false := by
        by_contra hclosing
        rw [wakes_closing (by simpa using hclosing)] at hopen
        exact hclosing hopen
      rw [taken, hstill, if_neg Bool.false_ne_true, ih hopen]

/-- Over a run the engine is given the commands of the wakes, in their order,
for as long as the connection is open. -/
theorem Heeds.wakes (h : task.Heeds start permit inputs commands) (wakes : List Wake) :
    (wakes.foldl Task.wake task).Heeds start permit inputs
      (commands ++ (task.taken wakes).flatMap Wake.commands) := by
  induction wakes generalizing task commands with
  | nil => simpa [taken] using h
  | cons wake wakes ih =>
      cases hclosing : task.closing with
      | true =>
          rw [wakes_closing hclosing, taken, hclosing, if_pos rfl, List.flatMap_nil, List.append_nil]
          exact h
      | false =>
          rw [taken, hclosing, if_neg Bool.false_ne_true, List.flatMap_cons, ← List.append_assoc]
          exact ih (h.wake hclosing wake)

end Task

def Stage.unauthenticated : Stage → Bool
  | .handshaking | .asked _ => true
  | _ => false

theorem Stage.next_unauthenticated (stage : Stage) (event : ConnEvent) (stage' : Stage)
    (h : stage.next event = some stage') : stage'.unauthenticated = (stage.unauthenticated && !event.settles) := by
  cases stage with
  | closed => cases h
  | handshaking =>
      cases event <;> cases h <;> rfl
  | asked peer =>
      cases event with
      | established peer' =>
          obtain ⟨-, h⟩ := Option.ite_none_right_eq_some.1 h
          cases h
          rfl
      | _ => cases h <;> rfl
  | established peer rekeying =>
      cases event with
      | rekeyFailed failure => cases failure <;> cases rekeying <;> cases h <;> rfl
      | _ => cases rekeying <;> cases h <;> rfl

def ConnEvent.isClosed : ConnEvent → Bool
  | .closed _ => true
  | _ => false

def ConnEvent.asks : ConnEvent → Bool
  | .sasRequired _ _ => true
  | _ => false

theorem Stage.next_isClosed {stage stage' : Stage} {event : ConnEvent} (h : stage.next event = some stage')
    (hclosed : event.isClosed = true) : stage' = .closed := by
  cases event with
  | closed cause => cases stage <;> cases h <;> rfl
  | _ => cases hclosed

theorem Stage.next_asks {stage stage' : Stage} {event : ConnEvent} (h : stage.next event = some stage') :
    (event.asks = true → stage = .handshaking ∧ stage' ≠ .handshaking) ∧
      (stage ≠ .handshaking → stage' ≠ .handshaking) := by
  cases stage with
  | closed => cases h
  | handshaking => cases event <;> cases h <;> simp [ConnEvent.asks]
  | asked peer =>
      cases event with
      | established peer' =>
          obtain ⟨-, h⟩ := Option.ite_none_right_eq_some.1 h
          cases h
          simp [ConnEvent.asks]
      | _ => cases h <;> simp [ConnEvent.asks]
  | established peer rekeying =>
      cases event with
      | rekeyFailed failure => cases failure <;> cases rekeying <;> cases h <;> simp [ConnEvent.asks]
      | _ => cases rekeying <;> cases h <;> simp [ConnEvent.asks]

/-- Nothing follows a close, and the SAS is asked for once. -/
structure Voiced (told : List ConnEvent) : Prop where
  final : told.Pairwise fun a _ => a.isClosed = false
  once : told.Pairwise fun a b => a.asks = true → b.asks = false

theorem voiced_of_reads {word told : List ConnEvent} {stage : Stage}
    (h : reads Stage.next .handshaking word = some stage) (hsub : told.Sublist word) : Voiced told where
  final := by
    have hpairwise := pairwise_of_reads (p := fun event => event.isClosed = true) (q := fun _ => True)
      (fun _ _ _ hnext hclosed => Stage.next_isClosed hnext hclosed)
      (by rintro _ event t hnext rfl; cases hnext) (by rintro _ event t hnext rfl; cases hnext) h
    refine (hpairwise.sublist hsub).imp ?_
    intro a b hab
    exact Bool.eq_false_iff.2 fun ha => hab ha trivial
  once := by
    have hpairwise := pairwise_of_reads (p := fun event => event.asks = true) (q := fun event => event.asks = true)
      (fun _ _ _ hnext hasks => ((Stage.next_asks hnext).1 hasks).2) (fun _ _ _ hnext => (Stage.next_asks hnext).2)
      (fun _ _ _ hnext hpast hasks => hpast ((Stage.next_asks hnext).1 hasks).1) h
    refine (hpairwise.sublist hsub).imp ?_
    intro a b hab ha
    exact Bool.eq_false_iff.2 (hab ha)

theorem Engine.Reached.closed_iff {e : Engine} {stage : Stage} (h : e.Reached stage) :
    e.phase = .closed ↔ stage = .closed := by
  cases stage with
  | closed => exact iff_of_true h rfl
  | handshaking =>
      refine iff_of_false ?_ (by simp)
      rcases h.1 with h | h <;> simp [h]
  | asked => exact iff_of_false (by simp [h.1]) (by simp)
  | established => exact iff_of_false (by simp [h.1]) (by simp)

/-- Read with the rekeys matched, what an engine reports is read alike. -/
theorem outputs_matched [Ciborium] [Primitives] (rfc : Ciborium.Rfc8949) (role : HelloRole) (identity : IdentityKeypair)
    (entropy : Entropy) (limit : Nat) (inputs : List Input) :
    let reported := reports ((Engine.configured role identity entropy limit).outputs inputs)
    reads Stage.matched .handshaking reported = reads Stage.next .handshaking reported := by
  dsimp only
  generalize hstart : Engine.configured role identity entropy limit = start
  have hreads : ∃ stage, (final Engine.handle start inputs).Fits ∧ (final Engine.handle start inputs).Reached stage ∧
      reads Stage.next .handshaking (reports (start.outputs inputs)) = some stage ∧
      reads Stage.matched .handshaking (reports (start.outputs inputs)) = some stage := by
    induction inputs using List.reverseRecOn with
    | nil =>
        rw [← hstart]
        exact ⟨.handshaking, Engine.configured_fits .., configured_reached .., rfl, rfl⟩
    | append_singleton inputs input ih =>
        obtain ⟨stage, hfits, hreached, hnext, hmatched⟩ := ih
        have hlast : (final Engine.handle start inputs).outputs [input] =
            ((final Engine.handle start inputs).handle input).2 := List.append_nil _
        rw [Task.outputs_append, reports_append, hlast, final_append]
        generalize final Engine.handle start inputs = e at hfits hreached ⊢
        obtain ⟨stage', hnext', hreached'⟩ := handle_leads hfits hreached input
        have hmatched' := (handle_matched rfc hfits hreached input).trans hnext'
        exact ⟨stage', handle_fits hfits input, hreached', reads_append_some _ hnext hnext',
          reads_append_some _ hmatched hmatched'⟩
  obtain ⟨stage, -, -, hnext, hmatched⟩ := hreads
  exact hmatched.trans hnext.symm

/-- Whatever arrives on a connection and whenever it is woken, its task gives
the engine the commands of its handles in their order and to the last it takes,
closes included, tells the consumer of everything the engine reports, in an order
of the grammar, unless the consumer is gone, writes all frames unless the
transport is, closes once and for all, and holds its permit exactly until it is
authenticated or closed. -/
theorem task_reports [Ciborium] [Primitives] (role : HelloRole) (identity : IdentityKeypair) (entropy : Entropy)
    (limit : Nat) (permit : Bool) (world : World) (wakes : List Wake) :
    let start := Engine.configured role identity entropy limit
    let task := (Task.new start permit world).run wakes
    let taken := ((Task.new start permit world).apply .start).taken wakes
    ∃ inputs stage, task.engine = final Engine.handle start inputs ∧ task.engine.Reached stage ∧
      reads Stage.next .handshaking (reports (start.outputs inputs)) = some stage ∧
      (Ciborium.Rfc8949 → reads Stage.matched .handshaking (reports (start.outputs inputs)) = some stage) ∧
      task.events.Sublist (reports (start.outputs inputs)) ∧
      (task.orphaned = false → task.events = reports (start.outputs inputs)) ∧
      task.written <+: (start.outputs inputs).filterMap Effect.frame? ∧
      (task.lost = false → task.written = (start.outputs inputs).filterMap Effect.frame?) ∧
      (task.lost = true ∨ task.orphaned = true → task.closing = true) ∧
      (task.closing = true ↔ stage = .closed) ∧
      task.permit = (permit && stage.unauthenticated) ∧
      task.Hands inputs (taken.flatMap Wake.commands) ∧
      taken <+: wakes ∧ (task.closing = false → taken = wakes) := by
  intro start task taken
  have hnew := (Task.new_follows role identity entropy limit permit world).heeds (Task.new_settled _ _ _)
  have hbegun := hnew.apply_quiet (rfl : Input.start.commanded = false)
  obtain ⟨inputs, hrun, hsettled, hhands⟩ := hbegun.wakes wakes
  obtain ⟨stage, hreads, hreached⟩ := hrun.stage
  refine ⟨inputs, stage, hrun.engine_eq, hreached, hreads, ?_, hrun.events, hrun.heard, hrun.written, hrun.sent,
    hsettled, hrun.closing.trans hreached.closed_iff, ?_, hhands, Task.taken_prefix .., Task.taken_eq wakes⟩
  · exact fun rfc => (outputs_matched rfc role identity entropy limit inputs).trans hreads
  · rw [flag_of_reads Stage.next_unauthenticated hreads]
    exact hrun.permit

end Ruxmsg

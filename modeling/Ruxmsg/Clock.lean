import Ruxmsg.Driver
import Ruxmsg.Postures
import Ruxmsg.Socket
import Ruxmsg.Library.History

namespace Ruxmsg

open Library.Machine Library.Timers

def Engine.timersOf (e : Engine) (kind : DeadlineKind) : List (DeadlineId × DeadlineKind) :=
  e.deadlines.filter (·.2 = kind)

def DeadlineKind.lasting : DeadlineKind → Bool
  | .handshakeFrame | .sasDecision => false
  | .handshakeTotal | .rekeyDue | .drain => true

namespace Ctx

variable {kind : DeadlineKind}

theorem timersOf_cancel (c : Ctx) {cancelled : DeadlineKind} (h : kind ≠ cancelled) :
    (c.cancel cancelled).self.timersOf kind = c.self.timersOf kind := by
  rw [Engine.timersOf, Engine.timersOf, cancel, List.filter_filter]
  apply List.filter_congr
  intro entry _
  by_cases hkind : entry.2 = kind
  · simp [hkind, h]
  · simp [hkind]

theorem timersOf_arm (c : Ctx) {armed : DeadlineKind} (h : kind ≠ armed) (after : Nat) :
    (c.arm armed after).self.timersOf kind = c.self.timersOf kind := by
  rw [← timersOf_cancel c h]
  simp [Engine.timersOf, arm, h.symm]

theorem timersOf_rearm (c : Ctx) (purpose : HandshakePurpose) (step : Step) (h : kind ≠ .handshakeFrame) :
    (c.rearmFrameDeadline purpose step).self.timersOf kind = c.self.timersOf kind := by
  rw [rearmFrameDeadline.eq_def]
  dsimp only
  split_ifs
  · rw [timersOf_arm _ h, timersOf_cancel _ h]
  · exact timersOf_cancel c h

section Steps

variable [Ciborium] [Primitives] (c : Ctx) (run : Run) (frame : Frame) (h : kind.lasting = true)

include h

omit [Ciborium] [Primitives] in
theorem lasting_ne : kind ≠ .handshakeFrame ∧ kind ≠ .sasDecision := by
  constructor
  · rintro rfl
    cases h
  · rintro rfl
    cases h

theorem stepAuthInit_timersOf : (c.stepAuthInit run frame).2.self.timersOf kind = c.self.timersOf kind := by
  rw [stepAuthInit]
  dsimp only
  split
  · rfl
  next keys response _ => exact timersOf_rearm (c.push (.send response)) _ _ (lasting_ne h).1

theorem afterApproval_timersOf : (c.afterApproval run).2.self.timersOf kind = c.self.timersOf kind := by
  rw [afterApproval]
  dsimp only
  split
  · rfl
  · split
    · split
      · rfl
      next auth _ => exact timersOf_rearm (c.push (.send auth)) _ _ (lasting_ne h).1
    · split
      · exact stepAuthInit_timersOf c _ _ h
      · exact timersOf_rearm c _ _ (lasting_ne h).1

theorem afterHellos_timersOf (remote : HelloPayload) :
    (c.afterHellos run remote).2.self.timersOf kind = c.self.timersOf kind := by
  rw [afterHellos]
  split
  · rfl
  · dsimp only
    split
    · exact (timersOf_arm _ (lasting_ne h).2 sasDecisionTimeoutSecs).trans (timersOf_cancel c (lasting_ne h).1)
    · exact afterApproval_timersOf c _ h

omit [Ciborium] [Primitives] h in
theorem finish_timersOf (keys : SessionKeys) : (c.finish run keys).2.self.timersOf kind = c.self.timersOf kind := by
  rw [finish]
  split <;> rfl

/-- A step of a run rearms the deadlines of the waits it ends and begins, and no others. -/
theorem stepRun_timersOf : (c.stepRun run frame).2.self.timersOf kind = c.self.timersOf kind := by
  rw [stepRun.eq_def]
  split
  · rw [stepHello.eq_def]
    dsimp only
    split
    · rfl
    next reveal _ => exact afterHellos_timersOf (c.push (.send reveal)) _ h _
  · rw [stepReveal]
    split
    · rfl
    · exact afterHellos_timersOf c run h _
  · rw [stepSas]
    split_ifs <;> rfl
  · rw [stepAuthResp]
    dsimp only
    split
    · rfl
    next confirm _ => exact timersOf_rearm (c.push (.send confirm)) _ _ (lasting_ne h).1
  · exact stepAuthInit_timersOf c run frame h
  · rw [stepConfirmResp]
    split
    · rfl
    · exact finish_timersOf c run _
  · rw [stepConfirmInit]
    dsimp only
    split
    · rfl
    next reply _ => exact finish_timersOf (c.push (.send reply)) run _

theorem driveRun_timersOf : (c.driveRun frame).2.self.timersOf kind = c.self.timersOf kind := by
  rw [driveRun]
  split
  · rfl
  next run _ =>
      have hstep := stepRun_timersOf (c.update fun self => { self with run := none }) run frame h
      generalize (c.update fun self => { self with run := none }).stepRun run frame = stepped at hstep ⊢
      obtain ⟨error | ⟨run', candidate⟩, d⟩ := stepped
      · exact hstep
      · cases candidate <;> exact hstep

end Steps

section Handshaking

variable [Ciborium] [Primitives]

omit [Ciborium] [Primitives] in
/-- The first entry that is looked for may go if it is not one of those that count. -/
theorem filter_eraseP {α : Type*} {p q : α → Bool} {x : α} {xs : List α} (hfind : xs.find? p = some x)
    (hx : q x = false) : (xs.eraseP p).filter q = xs.filter q := by
  induction xs with
  | nil => cases hfind
  | cons y ys ih =>
      by_cases hy : p y
      · rw [List.find?_cons_of_pos hy] at hfind
        obtain rfl : y = x := Option.some.inj hfind
        rw [List.eraseP_cons_of_pos hy, List.filter_cons_of_neg (by simp [hx])]
      · rw [List.find?_cons_of_neg hy] at hfind
        rw [List.eraseP_cons_of_neg hy, List.filter_cons, List.filter_cons, ih hfind]

def Spares (e : Engine) (c : Ctx) : Prop :=
  c.self.phase = .handshaking → c.self.timersOf .handshakeTotal = e.timersOf .handshakeTotal

omit [Primitives] in
theorem terminate_spares (e : Engine) (c : Ctx) (cause : CloseCause) (notifyPeer : Option CloseReason) :
    Spares e (c.terminate cause notifyPeer) := by
  rintro ⟨⟩

theorem startResponderRun_timersOf (c : Ctx) {commit : CommitPayload} (hpurpose : commit.purpose = .initial)
    (emitRekeyStarted : Bool) :
    (c.startResponderRun commit emitRekeyStarted).2.self.timersOf .handshakeTotal =
      c.self.timersOf .handshakeTotal := by
  rw [startResponderRun.eq_def]
  dsimp only
  split
  · rfl
  · rw [hpurpose, if_neg (by simp)]
    exact timersOf_rearm _ _ _ (by simp)

theorem acceptFirstCommit_timersOf (c : Ctx) (frame : Frame) :
    (c.acceptFirstCommit frame).2.self.timersOf .handshakeTotal = c.self.timersOf .handshakeTotal := by
  rw [acceptFirstCommit.eq_def]
  split
  · rfl
  · split_ifs with hother
    · rfl
    · rw [not_or, not_or, not_not] at hother
      exact startResponderRun_timersOf c (not_not.1 hother.2.1) true

omit [Primitives] in
theorem onCloseFrame_spares (c : Ctx) (hphase : c.self.phase = .handshaking) (frame : Frame) :
    Spares c.self (c.onCloseFrame frame) := by
  rw [onCloseFrame]
  split
  · exact terminate_spares _ _ _ _
  · rw [if_pos hphase]
    split_ifs
    · exact terminate_spares _ _ _ _
    · exact fun _ => rfl

omit [Ciborium] [Primitives] in
theorem completeInitial_spares (e : Engine) (c : Ctx) (candidate : Candidate) :
    Spares e (c.completeInitial candidate) := by
  rintro ⟨⟩

/-- A frame leaves the total deadline of an initial handshake alone, or ends the handshake. -/
theorem onFrameHandshaking_spares (c : Ctx) (hphase : c.self.phase = .handshaking) (frame : Frame) :
    Spares c.self (c.onFrameHandshaking frame) := by
  rw [onFrameHandshaking.eq_def]
  by_cases hclose : frame.messageType = .close
  · rw [if_pos hclose]
    exact onCloseFrame_spares c hphase frame
  · rw [if_neg hclose]
    by_cases hrun : c.self.run.isNone
    · have haccept := acceptFirstCommit_timersOf c frame
      rw [if_pos hrun]
      generalize c.acceptFirstCommit frame = accepted at haccept ⊢
      obtain ⟨error | _, d⟩ := accepted
      · exact terminate_spares _ _ _ _
      · exact fun _ => haccept
    · have hdrive := driveRun_timersOf c frame (rfl : DeadlineKind.lasting .handshakeTotal = true)
      rw [if_neg hrun]
      generalize c.driveRun frame = driven at hdrive ⊢
      obtain ⟨error | _ | candidate, d⟩ := driven
      · exact terminate_spares _ _ _ _
      · exact fun _ => hdrive
      · exact completeInitial_spares _ _ _

theorem onSas_spares (c : Ctx) (approved : Bool) : Spares c.self (c.onSas approved) := by
  rw [onSas]
  split
  · exact fun _ => rfl
  next run _ =>
      by_cases hother : c.self.phase ≠ .handshaking ∨ run.step ≠ .sas
      · rw [if_pos hother]
        exact fun _ => rfl
      · rw [if_neg hother]
        by_cases happroved : approved
        · have happroval := afterApproval_timersOf
            ((c.cancel .sasDecision).update fun self => { self with run := none }) run
            (rfl : DeadlineKind.lasting .handshakeTotal = true)
          have hcancel : (c.cancel .sasDecision).self.timersOf .handshakeTotal = c.self.timersOf .handshakeTotal :=
            timersOf_cancel c (by simp)
          dsimp only
          rw [if_neg (not_not.2 happroved)]
          generalize Ctx.afterApproval _ run = approval at happroval ⊢
          obtain ⟨error | ⟨run', _ | candidate⟩, d⟩ := approval
          · exact terminate_spares _ _ _ _
          · exact fun _ => happroval.trans hcancel
          · exact completeInitial_spares _ _ _
        · dsimp only
          rw [if_pos happroved]
          exact terminate_spares _ _ _ _

theorem beginRekey_handshaking {c : Ctx} (hphase : c.self.phase = .handshaking) : c.beginRekey = c := by
  rw [beginRekey, if_pos (.inl (by simp [hphase]))]

theorem onTimeout_spares (c : Ctx) (hphase : c.self.phase = .handshaking) (id : DeadlineId) :
    Spares c.self (c.onTimeout id) := by
  rw [onTimeout]
  split
  · exact fun _ => rfl
  next kind hfind =>
      have hfired (hkind : kind ≠ .handshakeTotal) :
          (c.self.deadlines.eraseP (·.1 = id)).filter (·.2 = .handshakeTotal) = c.self.timersOf .handshakeTotal := by
        apply filter_eraseP hfind
        simpa using hkind
      dsimp only
      cases kind with
      | handshakeFrame | handshakeTotal =>
          have hended : Spares c.self ((c.update fun self => { self with
              deadlines := self.deadlines.eraseP (·.1 = id) }).terminate .timeout (some .resourceLimit)) :=
            terminate_spares _ _ _ _
          simpa only [update, hphase, if_true] using hended
      | sasDecision => exact terminate_spares _ _ _ _
      | rekeyDue =>
          have hbegin (d : Ctx) (hd : d.self.phase = .handshaking)
              (htotal : d.self.timersOf .handshakeTotal = c.self.timersOf .handshakeTotal) :
              Spares c.self d.beginRekey := by
            rw [beginRekey_handshaking hd]
            exact fun _ => htotal
          exact hbegin _ hphase (hfired (by simp))
      | drain => exact fun _ => hfired (by simp)

theorem onSend_handshaking {c : Ctx} (hphase : c.self.phase = .handshaking) (content : List UInt8) :
    (c.onSend content).self = c.self := by
  rw [onSend]
  by_cases hlarge : maxContent < content.length
  · rw [if_pos hlarge]
    rfl
  · rw [if_neg hlarge, if_neg (by simp [hphase])]
    rfl

end Handshaking

end Ctx

variable [Ciborium] [Primitives]

/-- Whatever happens in an initial handshake, its total deadline stays as it
was armed until the handshake is over. -/
theorem handle_total {e : Engine} (hphase : e.phase = .handshaking) (input : Input)
    (hphase' : (e.handle input).1.phase = .handshaking) :
    (e.handle input).1.timersOf .handshakeTotal = e.timersOf .handshakeTotal := by
  have hopen : e.phase ≠ .closed := by simp [hphase]
  rw [Engine.handle, if_neg hopen] at hphase' ⊢
  cases input with
  | start =>
      have hstart : Ctx.start { self := e, out := [] } = { self := e, out := [] } := by
        rw [Ctx.start, if_pos (by simp [hphase])]
      dsimp only
      rw [hstart]
  | frameReceived frame =>
      have hframe : Ctx.onFrame { self := e, out := [] } frame = Ctx.onFrameHandshaking { self := e, out := [] } frame := by
        rw [Ctx.onFrame, hphase]
      dsimp only at hphase' ⊢
      rw [hframe] at hphase' ⊢
      exact Ctx.onFrameHandshaking_spares _ hphase frame hphase'
  | sasDecision approved => exact Ctx.onSas_spares { self := e, out := [] } approved hphase'
  | localSend content =>
      exact congrArg (Engine.timersOf · .handshakeTotal)
        (Ctx.onSend_handshaking (c := { self := e, out := [] }) hphase content)
  | requestRekey =>
      exact congrArg (fun c : Ctx => c.self.timersOf .handshakeTotal)
        (Ctx.beginRekey_handshaking (c := { self := e, out := [] }) hphase)
  | timeout id => exact Ctx.onTimeout_spares { self := e, out := [] } hphase id hphase'
  | localClose | transportClosed | malformed => cases hphase'

theorem Moves.running {e e' : Engine} {i : Input} {es : List Effect} (h : Moves e i es e')
    (hrunning : e.phase ≠ .idle) :
    e'.phase ≠ .idle ∧ (e'.phase = .handshaking → e.phase = .handshaking) := by
  have hbegins {late messages : Nat} {blocked : Bool} {active : Option Session} {es : List Effect} {e' : Engine}
      (begins : Begins { e.timeless with lateRekeyFrames := late, rekeyBlocked := blocked, messages, active } es e') :
      e'.phase = e.phase := by
    cases begins with
    | skipped => rfl
    | began => rfl
    | failed => rfl
  have hsame {e' : Engine} (heq : e'.phase = e.phase) :
      e'.phase ≠ .idle ∧ (e'.phase = .handshaking → e.phase = .handshaking) := by
    rw [heq]
    exact ⟨hrunning, id⟩
  cases h with
  | closed => exact ⟨nofun, nofun⟩
  | started hphase => exact absurd hphase hrunning
  | committed hphase => exact absurd hphase hrunning
  | established => exact ⟨nofun, nofun⟩
  | began _ begins => exact hsame (hbegins begins)
  | sent _ _ _ begins => exact hsame (hbegins begins)
  | delivered _ _ _ _ begins => exact hsame (hbegins begins)
  | _ => exact hsame rfl

namespace Task

structure Arms (effects : List Effect) (task task' : Task) : Prop where
  world_eq : task'.world = task.world
  questions_le : task.questions ≤ task'.questions
  armed : ∀ entry ∈ task'.deadlines, entry ∈ task.deadlines ∨
    ∃ kind after question, .setDeadline entry.1 kind after ∈ effects ∧ task.questions ≤ question ∧
      question < task'.questions ∧ entry.2 = task.world.now question + after * nanosPerSec
  kept : ∀ entry ∈ task.deadlines, .cancelDeadline entry.1 ∉ effects → entry ∈ task'.deadlines

variable {task task' task'' : Task} {effects effects' : List Effect}

section Arming

omit [Ciborium] [Primitives]

theorem Arms.refl (task : Task) : Arms [] task task :=
  ⟨rfl, le_rfl, fun _ he => .inl he, fun _ he _ => he⟩

theorem Arms.trans (h : Arms effects task task') (h' : Arms effects' task' task'') :
    Arms (effects ++ effects') task task'' where
  world_eq := h'.world_eq.trans h.world_eq
  questions_le := h.questions_le.trans h'.questions_le
  armed := by
    intro entry he
    rcases h'.armed entry he with he | ⟨kind, after, question, hset, hle, hlt, htime⟩
    · rcases h.armed entry he with he | ⟨kind, after, question, hset, hle, hlt, htime⟩
      · exact .inl he
      · exact .inr ⟨kind, after, question, List.mem_append_left _ hset, hle, hlt.trans_le h'.questions_le, htime⟩
    · rw [h.world_eq] at htime
      exact .inr ⟨kind, after, question, List.mem_append_right _ hset, h.questions_le.trans hle, hlt, htime⟩
  kept := by
    intro entry he hkept
    rw [List.mem_append, not_or] at hkept
    exact h'.kept entry (h.kept entry he hkept.1) hkept.2

theorem Arms.of_idle {effect : Effect} (hworld : task'.world = task.world) (hle : task.questions ≤ task'.questions)
    (hdeadlines : task'.deadlines = task.deadlines) : Arms [effect] task task' where
  world_eq := hworld
  questions_le := hle
  armed := by
    rw [hdeadlines]
    exact fun _ he => .inl he
  kept := by
    rw [hdeadlines]
    exact fun _ he _ => he

theorem emit_arms (task : Task) (effect : Effect) (event : ConnEvent) : Arms [effect] task (task.emit event) := by
  rw [emit]
  split_ifs <;> exact .of_idle rfl (Nat.le_succ _) rfl

theorem perform_arms (task : Task) (effect : Effect) : Arms [effect] task (task.perform effect) := by
  cases effect with
  | send frame =>
      rw [perform]
      split_ifs
      · exact .of_idle rfl le_rfl rfl
      · rw [write]
        split_ifs <;> exact .of_idle rfl (Nat.le_succ _) rfl
  | setDeadline id kind after =>
      refine ⟨rfl, Nat.le_succ _, ?_, fun entry he _ => List.mem_append_left _ he⟩
      intro entry he
      rcases List.mem_append.1 he with he | he
      · exact .inl he
      · rw [List.mem_singleton.1 he]
        exact .inr ⟨kind, after, task.questions, List.mem_singleton_self _, le_rfl, Nat.lt_succ_self _, rfl⟩
  | cancelDeadline id =>
      refine ⟨rfl, le_rfl, fun entry he => .inl (List.mem_of_mem_filter he), ?_⟩
      intro entry he hkept
      refine List.mem_filter.2 ⟨he, decide_eq_true ?_⟩
      rintro rfl
      exact hkept (List.mem_singleton_self _)
  | requestSas words peerIdentity => exact emit_arms task _ _
  | deliver content => exact emit_arms task _ _
  | notify event =>
      have hquiet (event : ConnEvent) (effect : Effect) :
          Arms [effect] task ({ task with permit := false }.emit event) :=
        let h := emit_arms { task with permit := false } effect event
        ⟨h.world_eq, h.questions_le, h.armed, h.kept⟩
      cases event with
      | established | closed => exact hquiet _ _
      | rekeyStarted | rekeyCompleted | rekeyFailed | dataRejected | sendRejected => exact emit_arms task _ _
  | closeTransport => exact .of_idle rfl le_rfl rfl

theorem process_arms (task : Task) (effects : List Effect) : Arms effects task (task.process effects) := by
  induction effects generalizing task with
  | nil => exact .refl task
  | cons effect effects ih => exact (perform_arms task effect).trans (ih (task.perform effect))

end Arming

section Handing

variable {P : Task → Prop}
  (hkeep : ∀ {task : Task} {input : Input}, input.fires = none → P task → P (task.handle input))

include hkeep

theorem apply_of_handle {input : Input} (h : P (task.handle input)) : P (task.apply input) := by
  rw [apply]
  generalize task.handle input = first at h ⊢
  have hsecond : P (if first.lost ∧ first.engine.phase ≠ .closed then first.handle .transportClosed else first) := by
    split_ifs
    · exact hkeep rfl h
    · exact h
  split_ifs at hsecond ⊢
  · exact hkeep rfl hsecond
  · exact hsecond
  · exact hkeep rfl hsecond
  · exact hsecond

theorem fires_of_handle {due : List (Instant × DeadlineId)}
    (hfire : ∀ deadline ∈ due, ∀ {task : Task}, P task → P ((task.forget deadline.2).handle (.timeout deadline.2)))
    (h : P task) :
    P (due.foldl (fun task deadline => (task.forget deadline.2).apply (.timeout deadline.2)) task) := by
  induction due generalizing task with
  | nil => exact h
  | cons deadline due ih =>
      apply ih (fun other hother => hfire other (List.mem_cons_of_mem _ hother))
      exact apply_of_handle hkeep (hfire deadline List.mem_cons_self h)

end Handing

section Punctual

/-- By the time that some questions have been asked, the clock has been read at
the end of a deadline, and for the first time after the effect that armed it. -/
def Passed (world : World) (effects : List Effect) (questions : Nat) (id : DeadlineId) : Prop :=
  ∃ kind after armed read, .setDeadline id kind after ∈ effects ∧ armed < read ∧ read < questions ∧
    world.now armed + after * nanosPerSec ≤ world.now read

omit [Ciborium] [Primitives] in
theorem Passed.mono {world : World} {effects effects' : List Effect} {questions questions' : Nat} {id : DeadlineId}
    (h : Passed world effects questions id) (hsub : effects ⊆ effects') (hle : questions ≤ questions') :
    Passed world effects' questions' id := by
  obtain ⟨kind, after, armed, read, hset, hlt, hread, hpassed⟩ := h
  exact ⟨kind, after, armed, read, hsub hset, hlt, hread.trans_le hle, hpassed⟩

/-- A task that has handed a deadline to its engine only after its time, and
whose other deadlines are due as far from their effects as those asked for. -/
structure Punctual (start : Engine) (world : World) (inputs : List Input) (task : Task) : Prop where
  engine_eq : task.engine = final Engine.handle start inputs
  world_eq : task.world = world
  sources : ∀ entry ∈ task.deadlines, ∃ kind after question, .setDeadline entry.1 kind after ∈ start.outputs inputs ∧
    question < task.questions ∧ entry.2 = world.now question + after * nanosPerSec
  fired : ∀ before id rest, inputs = before ++ .timeout id :: rest →
    Passed world (start.outputs before) task.questions id

variable {start : Engine} {world : World} {inputs : List Input}

theorem handle_arms (task : Task) (input : Input) :
    Arms (task.engine.handle input).2 task (task.handle input) :=
  let h := process_arms { task with engine := (task.engine.handle input).1 } (task.engine.handle input).2
  ⟨h.world_eq, h.questions_le, h.armed, h.kept⟩

theorem Punctual.handle (h : Punctual start world inputs task) {input : Input}
    (hpassed : ∀ id, input = .timeout id → Passed world (start.outputs inputs) task.questions id) :
    Punctual start world (inputs ++ [input]) (task.handle input) := by
  have harms := handle_arms task input
  have hout : start.outputs (inputs ++ [input]) = start.outputs inputs ++ (task.engine.handle input).2 := by
    rw [outputs_append, ← h.engine_eq]
    exact congrArg _ (List.flatMap_singleton ..)
  refine ⟨?_, harms.world_eq.trans h.world_eq, ?_, ?_⟩
  · rw [handle_engine, final_append, ← h.engine_eq]
    rfl
  · intro entry he
    rw [hout]
    rcases harms.armed entry he with he | ⟨kind, after, question, hset, -, hlt, htime⟩
    · obtain ⟨kind, after, question, hset, hlt, htime⟩ := h.sources entry he
      exact ⟨kind, after, question, List.mem_append_left _ hset, hlt.trans_le harms.questions_le, htime⟩
    · rw [h.world_eq] at htime
      exact ⟨kind, after, question, List.mem_append_right _ hset, hlt, htime⟩
  · intro before id rest heq
    rcases List.eq_nil_or_concat rest with rfl | ⟨rest, last, rfl⟩
    · obtain ⟨rfl, hlast⟩ := List.append_inj' heq rfl
      exact (hpassed id (List.singleton_inj.1 hlast)).mono (List.Subset.refl _) harms.questions_le
    · rw [List.concat_eq_append, ← List.cons_append, ← List.append_assoc] at heq
      obtain ⟨heq, -⟩ := List.append_inj' heq rfl
      exact (h.fired before id rest heq).mono (List.Subset.refl _) harms.questions_le

end Punctual

section Spent

variable {start : Engine} {id : DeadlineId}

/-- The ids that a call brings into use have not been used before. -/
theorem handle_fresh {e : Engine} (h : e.Timed) (input : Input) :
    (∀ id ∈ setIds (commands (e.handle input).2), e.nextDeadline ≤ id) ∧
      e.nextDeadline ≤ (e.handle input).1.nextDeadline := by
  by_cases hclosed : e.phase = .closed
  · rw [handle_closed hclosed]
    exact ⟨fun _ hid => absurd hid List.not_mem_nil, le_rfl⟩
  · obtain ⟨t, hs⟩ := h.shows
    obtain ⟨t', hturns⟩ := Engine.handle_turns hs hclosed input
    rw [hs.next_eq, hturns.shows.next_eq]
    exact ⟨fun id hid => (hturns.leads.fresh id hid).1, hturns.leads.next_le⟩

/-- An id that is armed after a call and has been in use before it was armed all along. -/
theorem mem_of_handle {e : Engine} (h : e.Timed) {input : Input} (hlt : id < e.nextDeadline)
    (hmem : id ∈ (e.handle input).1.ids) :
    id ∈ unfired e.ids input ∧ .cancelDeadline id ∉ (e.handle input).2 := by
  rw [← handle_ids h input] at hmem
  obtain ⟨hids, hcancel⟩ := Table.mem_of_replay hmem fun hset => absurd ((handle_fresh h input).1 id hset) hlt.not_ge
  exact ⟨hids, fun hmem => hcancel (List.mem_filterMap.2 ⟨_, hmem, rfl⟩)⟩

/-- A deadline that has been armed once and is not armed any more. -/
structure Spent (start : Engine) (id : DeadlineId) (task : Task) : Prop where
  inStep : InStep start task
  lt : id < task.engine.nextDeadline
  gone : id ∉ task.ids

theorem handle_spent {input : Input} (hinStep : InStep start (task.handle input)) (htimed : task.engine.Timed)
    (hlt : id < task.engine.nextDeadline) (hgone : id ∉ unfired task.engine.ids input) :
    Spent start id (task.handle input) := by
  refine ⟨hinStep, ?_, ?_⟩
  · rw [handle_engine]
    exact hlt.trans_le (handle_fresh htimed input).2
  · rw [hinStep.ids_eq, handle_engine]
    exact fun hmem => hgone (mem_of_handle htimed hlt hmem).1

theorem Spent.handle (h : Spent start id task) {input : Input} (hfires : input.fires = none) :
    Spent start id (task.handle input) := by
  apply handle_spent (h.inStep.handle hfires) h.inStep.timed h.lt
  rw [unfired_of_none hfires, ← h.inStep.ids_eq]
  exact h.gone

theorem forget_unfired (h : InStep start task) (id : DeadlineId) :
    (task.forget id).ids = unfired task.engine.ids (.timeout id) := by
  rw [forget_ids, h.ids_eq, unfired]
  apply List.filter_congr
  intro other _
  simp [Input.fires]

theorem fire_inStep (h : InStep start task) (id : DeadlineId) :
    InStep start ((task.forget id).handle (.timeout id)) :=
  handle_inStep h.engine_eq h.timed (forget_unfired h id)

theorem Spent.fire (h : Spent start id task) (fired : DeadlineId) :
    Spent start id ((task.forget fired).handle (.timeout fired)) := by
  apply handle_spent (fire_inStep h.inStep fired) h.inStep.timed h.lt
  intro hmem
  apply h.gone
  rw [h.inStep.ids_eq]
  exact List.mem_of_mem_filter hmem

theorem spent_fired (h : InStep start task) (hlt : id < task.engine.nextDeadline) :
    Spent start id ((task.forget id).handle (.timeout id)) := by
  apply handle_spent (fire_inStep h id) h.timed hlt
  rw [unfired]
  simp [Input.fires]

/-- A deadline that is fired in a round is spent by its end. -/
theorem spends_of_mem {due : List (Instant × DeadlineId)} {deadline : Instant × DeadlineId} (hd : deadline ∈ due)
    (h : InStep start task) (hlt : deadline.2 < task.engine.nextDeadline) :
    Spent start deadline.2
      (due.foldl (fun task deadline => (task.forget deadline.2).apply (.timeout deadline.2)) task) := by
  induction due generalizing task with
  | nil => cases hd
  | cons first due ih =>
      rw [List.foldl_cons]
      rcases List.mem_cons.1 hd with rfl | hd
      · apply fires_of_handle (P := Spent start deadline.2) (fun hfires h => h.handle hfires)
          (fun other _ _ h => h.fire other.2)
        exact apply_of_handle (P := Spent start deadline.2) (fun hfires h => h.handle hfires) (spent_fired h hlt)
      · have hkept : InStep start ((task.forget first.2).apply (.timeout first.2)) ∧
            deadline.2 < ((task.forget first.2).apply (.timeout first.2)).engine.nextDeadline := by
          apply apply_of_handle (P := fun task => InStep start task ∧ deadline.2 < task.engine.nextDeadline)
          · rintro task input hfires ⟨h, hlt⟩
            refine ⟨h.handle hfires, ?_⟩
            rw [handle_engine]
            exact hlt.trans_le (handle_fresh h.timed input).2
          · refine ⟨fire_inStep h first.2, ?_⟩
            rw [handle_engine]
            exact hlt.trans_le (handle_fresh h.timed _).2
        exact ih hd hkept.1 hkept.2

/-- A deadline whose time has come does not outlast the round that finds it. -/
theorem fireDue_spends (h : InStep start task) {entry : DeadlineId × Instant} (he : entry ∈ task.deadlines)
    (hle : entry.2 ≤ task.world.now task.questions) : Spent start entry.1 task.fireDue := by
  have hid : entry.1 ∈ task.engine.ids := by
    rw [← h.ids_eq]
    exact List.mem_map_of_mem he
  have hlt : entry.1 < task.engine.nextDeadline := by
    obtain ⟨t, hs⟩ := h.timed.shows
    rw [hs.ids_eq] at hid
    rw [hs.next_eq]
    obtain ⟨armed, ha, heq⟩ := List.mem_map.1 hid
    rw [← heq]
    exact t.below armed ha
  have hdue : (entry.2, entry.1) ∈ task.due (task.world.now task.questions) := by
    rw [due, List.mem_mergeSort]
    exact List.mem_map.2 ⟨entry, List.mem_filter.2 ⟨he, decide_eq_true hle⟩, rfl⟩
  exact spends_of_mem hdue ⟨h.engine_eq, h.timed, h.ids_eq⟩ hlt

end Spent

section Under

variable {start : Engine} {limit : Instant}

structure Under (start : Engine) (limit : Instant) (task : Task) : Prop where
  inStep : InStep start task
  fits : task.engine.Fits
  running : task.engine.phase ≠ .idle
  total : task.engine.phase = .handshaking →
    (0, .handshakeTotal) ∈ task.engine.deadlines ∧ (0, limit) ∈ task.deadlines

theorem handle_under {input : Input} (hinStep : InStep start (task.handle input)) (htimed : task.engine.Timed)
    (hfits : task.engine.Fits) (hrunning : task.engine.phase ≠ .idle)
    (htotal : task.engine.phase = .handshaking → (0, .handshakeTotal) ∈ task.engine.deadlines ∧
      (0 ∈ unfired task.engine.ids input → (0, limit) ∈ task.deadlines)) :
    Under start limit (task.handle input) := by
  have hphase := (handle_moves hfits input).running hrunning
  rw [← handle_engine] at hphase
  refine ⟨hinStep, ?_, hphase.1, ?_⟩
  · rw [handle_engine]
    exact handle_fits hfits input
  · intro hphase'
    obtain ⟨hentry, hdeadline⟩ := htotal (hphase.2 hphase')
    have hentry' : (0, .handshakeTotal) ∈ (task.handle input).engine.deadlines := by
      rw [handle_engine] at hphase' ⊢
      have hmem : (0, .handshakeTotal) ∈ task.engine.timersOf .handshakeTotal :=
        List.mem_filter.2 ⟨hentry, rfl⟩
      rw [← handle_total (hphase.2 (by rwa [handle_engine])) input hphase'] at hmem
      exact List.mem_of_mem_filter hmem
    refine ⟨hentry', ?_⟩
    have hlt : 0 < task.engine.nextDeadline := by
      obtain ⟨t, hs⟩ := htimed.shows
      rw [hs.next_eq]
      rw [hs.deadlines_eq] at hentry
      exact t.below _ hentry
    have hid : 0 ∈ (task.engine.handle input).1.ids := by
      rw [← handle_engine]
      exact List.mem_map_of_mem hentry'
    obtain ⟨hunfired, hcancel⟩ := mem_of_handle htimed hlt hid
    exact (handle_arms task input).kept _ (hdeadline hunfired) hcancel

theorem Under.handle (h : Under start limit task) {input : Input} (hfires : input.fires = none) :
    Under start limit (task.handle input) := by
  apply handle_under (h.inStep.handle hfires) h.inStep.timed h.fits h.running
  intro hphase
  exact ⟨(h.total hphase).1, fun _ => (h.total hphase).2⟩

theorem Under.fire (h : Under start limit task) (id : DeadlineId) :
    Under start limit ((task.forget id).handle (.timeout id)) := by
  apply handle_under (fire_inStep h.inStep id) h.inStep.timed h.fits h.running
  intro hphase
  obtain ⟨hentry, hdeadline⟩ := h.total hphase
  refine ⟨hentry, ?_⟩
  intro hunfired
  have hne : (0 : DeadlineId) ≠ id := by
    rintro rfl
    simp [unfired, Input.fires] at hunfired
  exact List.mem_filter.2 ⟨hdeadline, decide_eq_true hne⟩

theorem Under.fireDue (h : Under start limit task) : Under start limit task.fireDue := by
  apply fires_of_handle (P := Under start limit)
  · exact fun hfires h => h.handle hfires
  · exact fun deadline _ _ h => h.fire deadline.2
  · exact ⟨⟨h.inStep.engine_eq, h.inStep.timed, h.inStep.ids_eq⟩, h.fits, h.running, h.total⟩

end Under

end Task

section Starting

namespace Ctx

omit [Ciborium] [Primitives]

end Ctx

end Starting

namespace Task

variable (role : HelloRole) (identity : IdentityKeypair) (entropy : Entropy) (limit : Nat) (permit : Bool)
  (world : World)

def Past (task : Task) : Prop := task.engine.Fits ∧ task.engine.phase ≠ .idle ∧ task.engine.phase ≠ .handshaking

theorem Past.handle (h : Past task) (input : Input) : Past (task.handle input) := by
  obtain ⟨hfits, hrunning, hpast⟩ := h
  have hphase := (handle_moves hfits input).running hrunning
  rw [Past, handle_engine]
  exact ⟨handle_fits hfits input, hphase.1, fun h => hpast (hphase.2 h)⟩

omit [Ciborium] [Primitives] in
theorem Past.forget (h : Past task) (id : DeadlineId) : Past (task.forget id) := h

theorem Past.wakes (h : Past task) (later : List Wake) : Past (later.foldl Task.wake task) := by
  induction later generalizing task with
  | nil => exact h
  | cons wake later ih =>
      apply ih
      exact wake_keeps (P := Past) (fun _ input h => h.handle input) (fun _ _ h => h) (fun _ _ h => h) h wake

/-- A round that finds the total deadline of the first handshake passed ends that handshake. -/
theorem Under.past {start : Engine} {limit : Instant} (h : Under start limit task)
    (hle : limit ≤ task.world.now task.questions) : Past task.fireDue := by
  have hdue := h.fireDue
  by_cases hphase : task.engine.phase = .handshaking
  · refine ⟨hdue.fits, hdue.running, ?_⟩
    intro hphase'
    apply (fireDue_spends h.inStep (h.total hphase).2 hle).gone
    exact List.mem_map_of_mem (hdue.total hphase').2
  · apply fires_of_handle (P := Past)
    · exact fun _ h => h.handle _
    · exact fun deadline _ _ h => (h.forget deadline.2).handle _
    · exact ⟨h.fits, h.running, hphase⟩

end Task

namespace Socket

section Handing

variable {P : Socket → Prop} {self : Socket}
  (hkeep : ∀ {self : Socket} {input : Input}, input.fires = none → P self → P (self.handle input))

include hkeep

theorem apply_of_handle {input : Input} (h : P (self.handle input)) : P (self.apply input) := by
  rw [apply]
  generalize self.handle input = first at h ⊢
  have hsecond : P (if first.task.lost ∧ first.task.engine.phase ≠ .closed then first.handle .transportClosed else first) := by
    split_ifs
    · exact hkeep rfl h
    · exact h
  split_ifs at hsecond ⊢
  · exact hkeep rfl hsecond
  · exact hsecond
  · exact hkeep rfl hsecond
  · exact hsecond

/-- What every call keeps that fires no deadline, and every round that does, each
round of the loops keeps. -/
theorem round_of_handle (hsame : ∀ {self : Socket} (decoder : FrameDecoder) (draining : Bool), P self →
      P { self with decoder, draining })
    (hdue : ∀ {self : Socket}, P self → P self.fireDue) (h : P self) (round : Round) : P (self.round round) := by
  have happly {input : Input} (hfires : input.fires = none) {self : Socket} (h : P self) : P (self.apply input) :=
    apply_of_handle hkeep (hkeep hfires h)
  cases round with
  | read chunk => exact hsame _ _ h
  | readEnded => exact happly rfl h
  | message content => exact happly rfl h
  | command command => rcases command with _ | ⟨reason⟩ | _ | ⟨approved⟩ <;> exact happly rfl h
  | due => exact hdue h
  | poll =>
      change P self.poll
      by_cases hclosing : self.task.closing = true
      · rw [poll_closing hclosing]
        exact hsame _ _ h
      have hopen : self.task.closing = false := Bool.eq_false_iff.2 hclosing
      cases hnext : self.decoder.nextFrame with
      | mk result decoder =>
          rcases result with e | _ | frame
          · rw [poll_error hopen hnext]
            exact happly rfl (hsame _ _ h)
          · rw [poll_none hopen hnext]
            exact hsame _ _ h
          · rw [poll_some hopen hnext]
            exact happly rfl (hsame _ _ h)

end Handing

structure Punctual (start : Engine) (world : World) (socket : Socket) : Prop where
  calls_eq : socket.calls = trace Engine.handle start (socket.calls.map Record.input)
  punctual : Task.Punctual start world (socket.calls.map Record.input) socket.task

variable {start : Engine} {world : World} {self : Socket}

theorem Punctual.call (h : Punctual start world self) {input : Input} (hpassed : ∀ id, input = .timeout id →
    Task.Passed world (start.outputs (self.calls.map Record.input)) self.task.questions id) :
    Punctual start world (self.handle input) := by
  have hinputs : (self.handle input).calls.map Record.input = self.calls.map Record.input ++ [input] := by
    rw [handle_calls, List.map_append]
    rfl
  constructor
  · rw [hinputs, trace_append, ← h.calls_eq, ← h.punctual.engine_eq, handle_calls]
    rfl
  · rw [hinputs, handle_task]
    exact h.punctual.handle hpassed

theorem Punctual.handle (h : Punctual start world self) {input : Input} (hfires : input.fires = none) :
    Punctual start world (self.handle input) := by
  apply h.call
  rintro id rfl
  cases hfires

/-- The deadlines that are fired in one round have all passed at its beginning. -/
theorem Punctual.fireDue (h : Punctual start world self) : Punctual start world self.fireDue := by
  have hdue : ∀ deadline ∈ self.task.due (self.task.world.now self.task.questions),
      Task.Passed world (start.outputs (self.calls.map Record.input)) (self.task.questions + 1) deadline.2 := by
    intro deadline hd
    rw [Task.due, List.mem_mergeSort, List.mem_map] at hd
    obtain ⟨entry, he, rfl⟩ := hd
    obtain ⟨he, hle⟩ := List.mem_filter.1 he
    obtain ⟨kind, after, question, hset, hlt, htime⟩ := h.punctual.sources entry he
    refine ⟨kind, after, question, self.task.questions, hset, hlt, Nat.lt_succ_self _, ?_⟩
    rw [← htime, ← h.punctual.world_eq]
    exact of_decide_eq_true hle
  -- the calls so far stay, and the clock is not turned back
  let Later (self' : Socket) : Prop := Punctual start world self' ∧
    start.outputs (self.calls.map Record.input) ⊆ start.outputs (self'.calls.map Record.input) ∧
      self.task.questions + 1 ≤ self'.task.questions
  have hlater {self' : Socket} {input : Input} (h' : Later self') (hcall : Punctual start world (self'.handle input)) :
      Later (self'.handle input) := by
    refine ⟨hcall, List.Subset.trans h'.2.1 ?_, ?_⟩
    · rw [handle_calls, List.map_append, Task.outputs_append]
      exact List.subset_append_left _ _
    · rw [handle_task]
      exact h'.2.2.trans (Task.handle_arms self'.task input).questions_le
  have hfold (due : List (Instant × DeadlineId))
      (hsub : ∀ deadline ∈ due, deadline ∈ self.task.due (self.task.world.now self.task.questions)) :
      ∀ {self' : Socket}, Later self' → Later (due.foldl (fun self deadline =>
        { self with task := self.task.forget deadline.2 }.apply (.timeout deadline.2)) self') := by
    induction due with
    | nil => exact fun h => h
    | cons deadline due ih =>
        intro self' h'
        apply ih fun other hother => hsub other (List.mem_cons_of_mem _ hother)
        have hforget : Later { self' with task := self'.task.forget deadline.2 } :=
          ⟨⟨h'.1.calls_eq, h'.1.punctual.engine_eq, h'.1.punctual.world_eq,
            fun entry he => h'.1.punctual.sources entry (List.mem_of_mem_filter he), h'.1.punctual.fired⟩, h'.2⟩
        apply apply_of_handle (P := Later) fun hfires h' => hlater h' (h'.1.handle hfires)
        apply hlater hforget
        apply hforget.1.call
        rintro id ⟨⟩
        exact (hdue deadline (hsub deadline List.mem_cons_self)).mono hforget.2.1 hforget.2.2
  have hclock : Later { self with task := { self.task with questions := self.task.questions + 1 } } := by
    refine ⟨⟨h.calls_eq, h.punctual.engine_eq, h.punctual.world_eq, ?_, ?_⟩, List.Subset.refl _, le_rfl⟩
    · intro entry he
      obtain ⟨kind, after, question, hset, hlt, htime⟩ := h.punctual.sources entry he
      exact ⟨kind, after, question, hset, hlt.trans (Nat.lt_succ_self _), htime⟩
    · intro before id rest heq
      exact (h.punctual.fired before id rest heq).mono (List.Subset.refl _) (Nat.le_succ _)
  exact (hfold _ (fun _ h => h) hclock).1

theorem Punctual.rounds (h : Punctual start world self) (rounds : List Round) :
    Punctual start world (rounds.foldl round self) := by
  induction rounds generalizing self with
  | nil => exact h
  | cons round rounds ih =>
      apply ih
      exact round_of_handle (P := Punctual start world) (fun hfires h => h.handle hfires)
        (fun _ _ h => ⟨h.calls_eq, h.punctual⟩) (fun h => h.fireDue) h round

theorem Punctual.passed (h : Punctual start world self) {before after : List (Record Engine Input (List Effect))}
    {call : Record Engine Input (List Effect)} (hcalls : self.calls = before ++ call :: after) {id : DeadlineId}
    (hinput : call.input = .timeout id) :
    Task.Passed world (before.flatMap Record.out) self.task.questions id := by
  have hsplit : self.calls.map Record.input = before.map Record.input ++ .timeout id :: after.map Record.input := by
    rw [hcalls, List.map_append, List.map_cons, hinput]
  have hpassed := h.punctual.fired _ _ _ hsplit
  have hbefore : before = trace Engine.handle start (before.map Record.input) := by
    have hinputs : (trace Engine.handle start (before.map Record.input)).map Record.input = before.map Record.input :=
      trace_inputs ..
    have hlength := congrArg List.length hinputs
    rw [List.length_map, List.length_map] at hlength
    have heq := h.calls_eq
    rw [hsplit, trace_append, hcalls] at heq
    exact (List.append_inj heq hlength.symm).1
  rwa [Engine.outputs, ← hbefore] at hpassed

end Socket

end Ruxmsg

import Ruxmsg.Cable
import Ruxmsg.Conversation

namespace Ruxmsg

open Library.Machine Library.Stream Library.Duplex

namespace Task

/-- A task whose writes succeed and whose consumer stays. -/
structure Willing (task : Task) : Prop where
  writes : ∀ k, task.world.writes k = true
  listens : ∀ k, task.world.listens k = true
  lost : task.lost = false
  orphaned : task.orphaned = false

theorem Willing.emit {task : Task} (h : task.Willing) (event : ConnEvent) : (task.emit event).Willing := by
  rw [Task.emit, if_pos (h.listens _)]
  exact ⟨h.writes, h.listens, h.lost, h.orphaned⟩

theorem Willing.perform {task : Task} (h : task.Willing) (effect : Effect) : (task.perform effect).Willing := by
  cases effect with
  | send frame =>
      rw [Task.perform, if_pos (by rw [h.lost]; exact Bool.false_ne_true), Task.write, if_pos (h.writes _)]
      exact ⟨h.writes, h.listens, h.lost, h.orphaned⟩
  | setDeadline | cancelDeadline | closeTransport => exact ⟨h.writes, h.listens, h.lost, h.orphaned⟩
  | requestSas | deliver => exact h.emit _
  | notify event =>
      cases event with
      | established | closed =>
          have hsettled : Willing { task with permit := false } := ⟨h.writes, h.listens, h.lost, h.orphaned⟩
          exact hsettled.emit _
      | _ => exact h.emit _

theorem Willing.process {task : Task} (h : task.Willing) (effects : List Effect) : (task.process effects).Willing := by
  induction effects generalizing task with
  | nil => exact h
  | cons effect effects ih => exact ih (h.perform effect)

variable [Ciborium] [Primitives]

theorem Willing.handle {task : Task} (h : task.Willing) (input : Input) : (task.handle input).Willing := by
  have hcalled : Willing { task with engine := (task.engine.handle input).1 } :=
    ⟨h.writes, h.listens, h.lost, h.orphaned⟩
  exact hcalled.process _

end Task

variable [Ciborium] [Primitives]

theorem Socket.settle_willing {x : Socket} (h : x.task.Willing) : x.settle = x := by
  have hlost : ¬ (x.task.lost = true ∧ x.task.engine.phase ≠ .closed) := by
    rintro ⟨hlost, -⟩
    cases h.lost.symm.trans hlost
  have horphaned : ¬ (x.task.orphaned = true ∧ x.task.engine.phase ≠ .closed) := by
    rintro ⟨horphaned, -⟩
    cases h.orphaned.symm.trans horphaned
  rw [settle, if_neg hlost, if_neg horphaned]

/-- Where nothing is lost, an input is one call of the engine. -/
theorem Socket.apply_willing {x : Socket} (h : x.task.Willing) (input : Input) : x.apply input = x.handle input := by
  have hafter := h.handle input
  rw [← handle_task] at hafter
  rw [apply_eq, settle_willing hafter]

namespace Cable

def Act.converses : Act → Bool
  | .reads _ _ | .goes _ .poll | .goes _ (.message _) | .goes _ (.command (some .requestRekey))
  | .goes _ (.command (some (.sas true))) => true
  | _ => false

def Lasting (w : Cable) : Prop := Connection.Lasting (Link.init fun s => (w.ends s).task.engine)

instance : DecidablePred Lasting := fun _ => inferInstanceAs (Decidable (Connection.Lasting _))

def delivered (w : Cable) (s : Side) : List (List UInt8) := (w.ends s).task.events.filterMap ConnEvent.message?

def accepted (w : Cable) (s : Side) : List (List UInt8) :=
  (w.ends s).calls.filterMap fun call => accepted? call.input call.out

structure Conversing (start : Side → Engine) (permit : Side → Bool) (w : Cable) (d : Connection) : Prop where
  meets : Meets start permit w d
  conversing : d.Conversing
  willing : ∀ s, (w.ends s).task.Willing

variable {start : Side → Engine} {permit : Side → Bool} {w w' : Cable} {d : Connection} {s : Side}

theorem Meets.lasting (h : Meets start permit w d) (hlasting : w.Lasting) : d.Lasting := by
  have hnode : (fun s => (w.ends s).task.engine) = d.node := funext fun s => (h.runs s).engine_eq
  rw [Lasting, hnode] at hlasting
  exact ⟨⟨hlasting.1.ephemerals, hlasting.1.sessionIds⟩, hlasting.2⟩

theorem Conversing.put (h : Conversing start permit w d) {x : Socket} {d' : Connection}
    (hmeets : Meets start permit (w.put s x) d') (hconversing : d'.Conversing) (hwilling : x.task.Willing) :
    Conversing start permit (w.put s x) d' := by
  refine ⟨hmeets, hconversing, ?_⟩
  intro t
  obtain rfl | rfl := Side.eq_or_other s t
  · rwa [put_ends]
  · rw [put_ends_other]
    exact h.willing s.other

variable (rfc : Ciborium.Rfc8949) (hprim : Primitives.Correct)

include rfc hprim

theorem Conversing.input (h : Conversing start permit w d) {i : Input} (hi : Ruxmsg.Converses (.input s i))
    (hlasting : (w.put s ((w.ends s).apply i)).Lasting) :
    ∃ d', Conversing start permit (w.put s ((w.ends s).apply i)) d' := by
  have hwilling := h.willing s
  rw [Socket.apply_willing hwilling] at hlasting ⊢
  have hmeets := h.meets.handle s i
  have hkept := hmeets.lasting hlasting
  rw [← Link.take_inbox_self d s] at hkept hmeets
  refine ⟨_, h.put hmeets (h.conversing.next rfc hprim hkept.1 hkept.2 (.inl ⟨rfl, hi⟩)) ?_⟩
  rw [Socket.handle_task]
  exact hwilling.handle i

theorem Conversing.frame (h : Conversing start permit w d) {frame : Frame} {decoder : FrameDecoder}
    (hnext : (w.ends s).decoder.nextFrame = (.ok (some frame), decoder))
    (hlasting : (w.put s ({ w.ends s with decoder }.apply (.frameReceived frame))).Lasting) :
    ∃ d', Conversing start permit (w.put s ({ w.ends s with decoder }.apply (.frameReceived frame))) d' := by
  have hwilling : Task.Willing { w.ends s with decoder }.task := h.willing s
  rw [Socket.apply_willing hwilling] at hlasting ⊢
  obtain ⟨rest, hinbox, hmeets⟩ := h.meets.frame hnext
  have hkept := hmeets.lasting hlasting
  refine ⟨_, h.put hmeets (h.conversing.next rfc hprim hkept.1 hkept.2 (.inr ⟨frame, hinbox, rfl, .deliver s⟩)) ?_⟩
  rw [Socket.handle_task]
  exact hwilling.handle _

theorem Conversing.step (h : Conversing start permit w d) {act : Act} (hact : act.converses = true)
    (hstep : w.step act = some w') (hlasting : w'.Lasting) : ∃ d', Conversing start permit w' d' := by
  cases act with
  | reads s count =>
      obtain ⟨⟨-, -, -, hcount⟩, hstep⟩ := Option.ite_none_right_eq_some.1 hstep
      obtain rfl := Option.some.inj hstep
      refine ⟨d, h.meets.read hcount, h.conversing, ?_⟩
      intro t
      obtain rfl | rfl := Side.eq_or_other s t
      · rw [receive_ends]
        exact h.willing t
      · rw [receive_ends_other]
        exact h.willing s.other
  | goes s round =>
      cases round with
      | read | readEnded | due => cases hact
      | message content =>
          obtain ⟨-, hstep⟩ := Option.ite_none_right_eq_some.1 hstep
          obtain rfl := Option.some.inj hstep
          exact h.input rfc hprim (.send s content) hlasting
      | command command =>
          obtain ⟨-, hstep⟩ := Option.ite_none_right_eq_some.1 hstep
          obtain rfl := Option.some.inj hstep
          rcases command with _ | ⟨reason⟩ | _ | ⟨approved⟩
          · cases hact
          · cases hact
          · exact h.input rfc hprim (.rekey s) hlasting
          · cases approved with
            | false => cases hact
            | true => exact h.input rfc hprim (.approve s) hlasting
      | poll =>
          obtain ⟨-, hstep⟩ := Option.ite_none_right_eq_some.1 hstep
          obtain rfl := Option.some.inj hstep
          rw [Socket.round] at hlasting ⊢
          rcases h.meets.poll s with hpoll | ⟨frame, decoder, hnext, hpoll⟩
          · rw [hpoll]
            exact ⟨d, h.put (h.meets.alike ⟨rfl, rfl, rfl, rfl, id⟩ rfl) h.conversing (h.willing s)⟩
          · rw [hpoll] at hlasting ⊢
            exact h.frame rfc hprim hnext hlasting

section Start

variable (identity : Side → IdentityKeypair) (entropy : Side → Entropy) (limit : Side → Nat) (permit : Side → Bool)
  (world : Side → World) (tears : Side → Nat → Nat)

omit hprim in
theorem started_conversing (hdistinct : (identity .left).identity ≠ (identity .right).identity)
    (hworld : ∀ s k, (world s).writes k = true ∧ (world s).listens k = true) :
    Conversing (sideEngine identity entropy limit) permit (started identity entropy limit permit world tears)
      (Connection.started identity entropy limit) := by
  have hnew (s : Side) : ((spawned identity entropy limit permit world tears).ends s).task.Willing :=
    ⟨fun k => (hworld s k).1, fun k => (hworld s k).2, rfl, rfl⟩
  have hstart := ((meets_spawned identity entropy limit permit world tears).handle .left .start).handle .right .start
  have hends (s : Side) : (started identity entropy limit permit world tears).ends s =
      ((spawned identity entropy limit permit world tears).ends s).handle .start := Socket.apply_willing (hnew s) .start
  refine ⟨?_, Connection.started_conversing rfc identity entropy limit hdistinct, ?_⟩
  · refine (congrArg (Meets _ permit · _) ?_).mpr hstart
    refine congrArg (fun ends => Cable.mk ends fun _ => 0) (funext fun s => (hends s).trans ?_)
    cases s with
    | left => rfl
    | right => rfl
  · intro s
    rw [hends, Socket.handle_task]
    exact (hnew s).handle .start

end Start

end Cable

omit [Ciborium] [Primitives] in
theorem reports_messages (effects : List Effect) :
    (reports effects).filterMap ConnEvent.message? = effects.filterMap Effect.delivered? := by
  rw [reports, List.filterMap_filterMap]
  refine List.filterMap_congr fun effect _ => ?_
  cases effect with
  | notify event => cases event <;> rfl
  | _ => rfl

/-- Two users who talk over byte streams hear each what the other has sent, in
order, once and without a gap, however the streams cut their frames: all of it
once no byte is left to be read. -/
theorem exactly_once_over_bytes (rfc : Ciborium.Rfc8949) (hprim : Primitives.Correct)
    (identity : Side → IdentityKeypair) (entropy : Side → Entropy) (limit : Side → Nat) (permit : Side → Bool)
    (world : Side → World) (tears : Side → Nat → Nat)
    (hdistinct : (identity .left).identity ≠ (identity .right).identity)
    (hworld : ∀ s k, (world s).writes k = true ∧ (world s).listens k = true) {w : Cable}
    (hrun : Relation.ReflTransGen (Cable.Next (fun act => act.converses) Cable.Lasting)
      (Cable.started identity entropy limit permit world tears) w) (s : Side) :
    w.delivered s <+: w.accepted s.other ∧ (w.pending s = [] → w.delivered s = w.accepted s.other) ∧
      .dataRejected ∉ (w.ends s).task.events ∧ (w.ends s).task.closing = false := by
  have h : ∃ d, Cable.Conversing (sideEngine identity entropy limit) permit w d := by
    induction hrun with
    | refl =>
        exact ⟨_, Cable.started_conversing rfc identity entropy limit permit world tears hdistinct hworld⟩
    | tail _ hnext ih =>
        obtain ⟨d, h⟩ := ih
        obtain ⟨act, hact, hstep, hlasting⟩ := hnext
        exact h.step rfc hprim hact hstep hlasting
  obtain ⟨d, hmeets, hconversing, hwilling⟩ := h
  obtain ⟨contents, haccounts, hpaired⟩ := hconversing.paired
  obtain ⟨⟨inputs, hfollows, hcalls⟩, -, hengine, hlist⟩ := hmeets.runs s
  have hevents : (w.ends s).task.events = reports (d.effects s) := by
    rw [hfollows.heard (hwilling s).orphaned, Connection.effects, ← hlist, hcalls]
    rfl
  have hdelivered : w.delivered s = d.delivered s := by
    rw [Cable.delivered, hevents, reports_messages]
    rfl
  have haccepted : w.accepted s.other = d.accepted s.other := by
    rw [Cable.accepted, (hmeets.runs s.other).calls_eq]
    rfl
  rw [hdelivered, haccepted]
  refine ⟨?_, ?_, ?_, ?_⟩
  · rw [haccounts]
    exact List.prefix_append _ _
  · intro hempty
    have hinbox : d.inbox s = [] := by
      obtain ⟨-, left, hleft, hkept⟩ := Cable.pending_decodes (hmeets.conveys s)
      have hnone : Frame.decode [] = .error .truncatedFrame := rfl
      have hbytes : (w.ends s).decoder.buffer ++ w.flight s = [] := hempty
      rw [hleft, hkept (hwilling s.other).lost, hbytes, Frame.decodeAll_error hnone]
      rfl
    have hnone := hpaired s
    rw [hinbox] at hnone
    rw [haccounts, hnone.of_nil, List.append_nil]
  · rw [hevents]
    intro hmem
    obtain ⟨effect, heffect, hreport⟩ := List.mem_filterMap.1 hmem
    have hfine := hconversing.joint.fine s effect heffect
    cases effect with
    | notify event =>
        cases event with
        | dataRejected => exact hfine
        | _ => cases hreport
    | _ => cases hreport
  · rw [Bool.eq_false_iff, ne_eq, hfollows.closing, hengine]
    rcases (hconversing.joint.together s).exchange with hexchange | hexchange
    · exact (hexchange.opened (hconversing.joint.fits s)).1
    · exact (hexchange.opened (hconversing.joint.fits s.other)).2

end Ruxmsg

namespace Ruxmsg

open Library.Duplex Sample

/-- The state after some steps, if every state on the way is kept. -/
def Cable.keptRun (w : Cable) : List Cable.Act → Option Cable
  | [] => some w
  | act :: acts => (w.step act).bind fun w' => if w'.Lasting then w'.keptRun acts else none

theorem Cable.reaches_of_keptRun {acts : List Cable.Act} (hacts : ∀ act ∈ acts, act.converses = true) {w w' : Cable}
    (h : w.keptRun acts = some w') : Relation.ReflTransGen (Cable.Next (fun act => act.converses) Cable.Lasting) w w' := by
  induction acts generalizing w with
  | nil =>
      obtain rfl := Option.some.inj h
      exact .refl
  | cons act acts ih =>
      obtain ⟨w₁, hstep, h⟩ := Option.bind_eq_some_iff.1 h
      obtain ⟨hkept, h⟩ := Option.ite_none_right_eq_some.1 h
      exact .head ⟨act, hacts act List.mem_cons_self, hstep, hkept⟩
        (ih (fun act hact => hacts act (List.mem_cons_of_mem _ hact)) h)

def sampleCable : Cable :=
  Cable.started (fun | .left => leftIdentity | .right => rightIdentity)
    (fun | .left => entropy 100 | .right => entropy 200) (fun _ => rekeyMessageLimit)
    (fun | .left => false | .right => true) (fun _ => sampleWorld) fun _ _ => 0

/-- A handshake and two messages; the streams cut the first frame after three
bytes, and the second message in the middle. -/
def sampleDialogue : List Cable.Act :=
  [.reads .right 3, .goes .right .poll, .reads .right 45, .goes .right .poll, .goes .right .poll,
    .reads .left 103, .goes .left .poll, .goes .left .poll, .reads .right 103, .goes .right .poll, .goes .right .poll,
    .goes .left (.command (some (.sas true))), .goes .right (.command (some (.sas true))),
    .reads .right 256, .goes .right .poll, .goes .right .poll, .reads .left 323, .goes .left .poll, .goes .left .poll,
    .reads .right 62, .goes .right .poll, .goes .right .poll, .reads .left 62, .goes .left .poll, .goes .left .poll,
    .goes .left (.message [104, 105]), .goes .left (.message [111]),
    .reads .right 300, .goes .right .poll, .goes .right .poll, .reads .right 278, .goes .right .poll,
    .goes .right .poll]

theorem exactly_once_over_bytes_sample : ∃ w, sampleCable.keptRun sampleDialogue = some w ∧
    w.accepted .left = [[104, 105], [111]] ∧ w.delivered .right = w.accepted .left := by
  have hrun : (sampleCable.keptRun sampleDialogue).any (fun w => w.pending .right = [] ∧
      w.accepted .left = [[104, 105], [111]]) = true := by
    decide +kernel
  obtain ⟨w, hw, hends⟩ := (Option.any_eq_true _ _).1 hrun
  obtain ⟨hempty, haccepted⟩ := of_decide_eq_true hends
  have hreach : Relation.ReflTransGen (Cable.Next (fun act => act.converses) Cable.Lasting) sampleCable w :=
    Cable.reaches_of_keptRun (by decide) hw
  have h := exactly_once_over_bytes Ciborium.reference_rfc8949 Primitives.plain_correct _ _ _ _ _ _
    (by decide +kernel) (fun _ _ => ⟨rfl, rfl⟩) hreach .right
  exact ⟨w, hw, haccepted, h.2.1 hempty⟩

end Ruxmsg

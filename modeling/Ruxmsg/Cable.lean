import Ruxmsg.Convergence
import Ruxmsg.Forms
import Ruxmsg.Socket

namespace Ruxmsg

open Library.Machine Library.Stream Library.Duplex

def Frame.Within (frame : Frame) : Prop := frame.payload.length ≤ frame.messageType.maxPayload

section Within

variable [Ciborium]

theorem HelloPayload.encode_within {p : HelloPayload} {frame : Frame} (h : p.encode = .ok frame) : frame.Within :=
  encodeMap_within (encode_eq_ok.1 h).2.2

theorem CommitPayload.encode_within {p : CommitPayload} {frame : Frame} (h : p.encode = .ok frame) : frame.Within :=
  encodeMap_within (encode_eq_ok.1 h).2.2

theorem HandshakePayload.encode_within {p : HandshakePayload} {frame : Frame} (h : p.encode = .ok frame) :
    frame.Within := by
  simp only [encode, bind_eq_ok, ensure_eq_ok] at h
  obtain ⟨_, -, _, -, _, -, h⟩ := h
  exact encodeMap_within h

theorem SessionConfirmPayload.encode_within {p : SessionConfirmPayload} {frame : Frame} (h : p.encode = .ok frame) :
    frame.Within := encodeMap_within h

theorem ClosePayload.encode_within {p : ClosePayload} {frame : Frame} (h : p.encode = .ok frame) : frame.Within := by
  simp only [encode, bind_eq_ok, ensure_eq_ok] at h
  obtain ⟨_, -, h⟩ := h
  exact encodeMap_within h

theorem closing_within {e : Engine} {cause : CloseCause} {notifyPeer : Option CloseReason} {f : Frame}
    (h : .send f ∈ e.closing cause notifyPeer) : f.Within := by
  simp only [Engine.closing, List.mem_append, List.mem_cons, reduceCtorEq, List.not_mem_nil, or_false] at h
  split at h
  next =>
      split at h
      next he =>
          simp only [List.mem_singleton, Effect.send.injEq] at h
          exact h ▸ ClosePayload.encode_within he
      next => cases h
  next => cases h

variable [Primitives]

theorem encrypt_within {sender sender' : DataSender} {content : List UInt8} {frame : Frame}
    (h : sender.encrypt content = (.ok frame, sender')) : frame.Within := by
  obtain ⟨-, payload, -, hp⟩ := DataSender.encrypt_eq_ok h
  have hmap : encodeMap .data payload.entries = .ok frame := hp
  exact encodeMap_within hmap

variable {e e' : Engine} {i : Input} {es : List Effect} {run : Run} {frame f : Frame} {result : Ctx.Stepped}

theorem Steps.within (hs : run.Sound e) (h : Steps e run frame es result) (hf : .send f ∈ es) : f.Within := by
  cases h with
  | helloSas _ _ hk | helloFailed _ _ _ hk =>
      simp only [List.mem_cons, List.not_mem_nil, or_false, Effect.send.injEq, reduceCtorEq] at hf
      exact hf ▸ HelloPayload.encode_within (hs.kept _ hk)
  | helloAuth _ _ hk _ _ _ he =>
      simp only [List.mem_cons, List.not_mem_nil, or_false, Effect.send.injEq] at hf
      obtain rfl | rfl := hf
      · exact HelloPayload.encode_within (hs.kept _ hk)
      · exact HandshakePayload.encode_within he
  | revealSas => simp at hf
  | revealAuth | early | confirmResp | failed => cases hf
  | authResp _ _ _ he | confirmInit _ _ he | confirmFailed _ _ _ he =>
      simp only [List.mem_singleton, Effect.send.injEq] at hf
      exact hf ▸ SessionConfirmPayload.encode_within he
  | authInit _ _ _ he =>
      simp only [List.mem_singleton, Effect.send.injEq] at hf
      exact hf ▸ HandshakePayload.encode_within he

theorem Approves.within (h : Approves e run es result) (hf : .send f ∈ es) : f.Within := by
  cases h with
  | initiator _ _ _ he | early _ _ _ _ _ _ he =>
      simp only [List.mem_singleton, Effect.send.injEq] at hf
      exact hf ▸ HandshakePayload.encode_within he
  | responder | failed => cases hf

theorem Begins.within (h : Begins e es e') (hf : .send f ∈ es) : f.Within := by
  cases h with
  | skipped => cases hf
  | began _ _ _ _ hc =>
      simp only [List.mem_cons, List.not_mem_nil, or_false, Effect.send.injEq, reduceCtorEq] at hf
      exact hf ▸ CommitPayload.encode_within hc
  | failed => simp at hf

theorem Abandons.within (hp : e.Pinned) (h : Abandons e i es) (hf : .send f ∈ es) : f.Within := by
  cases h with
  | stepped _ hr hs => exact hs.within (hp.run_sound _ hr) hf
  | refused hr hs => exact hs.within (hp.run_sound _ hr) hf
  | timeout => cases hf

theorem Moves.within (hp : e.Pinned) (h : Moves e i es e') (hf : .send f ∈ es) : f.Within := by
  have hlast {es : List Effect} {event : Event} (h : .send f ∈ es ++ [.notify event]) : .send f ∈ es := by
    simpa using h
  cases h with
  | noted | unsent | drained | rejected | refused => simp at hf
  | started | ended => cases hf
  | closed prior =>
      obtain hf | hf := List.mem_append.1 hf
      · cases prior with
        | none => cases hf
        | stepped _ _ hr hs => exact hs.within (hp.run_sound _ hr) hf
      · exact closing_within hf
  | committed _ _ hc =>
      simp only [List.mem_singleton, Effect.send.injEq] at hf
      exact hf ▸ CommitPayload.encode_within hc
  | accepted _ _ hacc | yielded _ _ _ _ _ _ _ hacc =>
      simp only [List.mem_singleton, Effect.send.injEq] at hf
      exact hf ▸ HelloPayload.encode_within hacc.hello
  | answered _ _ hacc =>
      simp only [List.mem_cons, List.not_mem_nil, or_false, Effect.send.injEq, reduceCtorEq] at hf
      exact hf ▸ HelloPayload.encode_within hacc.hello
  | stepped _ hr hs => exact hs.within (hp.run_sound _ hr) hf
  | approved _ _ _ happ => exact happ.within hf
  | established _ hr hs => exact hs.within (hp.run_sound _ hr) (hlast hf)
  | promoted _ hr hs => exact hs.within (hp.run_sound _ hr) (hlast hf)
  | abandoned _ habandons => exact habandons.within hp (hlast hf)
  | began _ h => exact h.within hf
  | sent _ _ henc h =>
      obtain hf | hf := List.mem_cons.1 hf
      · cases hf
        exact encrypt_within henc
      · exact h.within hf
  | delivered _ _ _ _ h =>
      obtain hf | hf := List.mem_cons.1 hf
      · cases hf
      · exact h.within hf

theorem handle_within (hf : e.Fits) (hp : e.Pinned) (i : Input) :
    ∀ frame ∈ (e.handle i).2.filterMap Effect.frame?, frame.Within := by
  intro frame hframe
  rw [← frames_visible] at hframe
  obtain ⟨effect, hmem, heffect⟩ := List.mem_filterMap.1 hframe
  cases effect <;> cases heffect
  exact (handle_moves hf i).within hp hmem

end Within

theorem Task.emit_lost (task : Task) (event : ConnEvent) : (task.emit event).lost = task.lost := by
  rw [emit]
  split_ifs
  · rfl
  · rfl

namespace Socket

variable {x x' x'' : Socket} {frames frames' : List Frame}

def Puts (x : Socket) (frames : List Frame) (x' : Socket) : Prop :=
  ∃ more, x'.stream = x.stream ++ more ∧ ∀ {bytes inbox}, frameCodec.Conveys bytes inbox x.task.lost →
    frameCodec.Conveys (bytes ++ more) (inbox ++ frames) x'.task.lost

theorem Puts.idle (hstream : x'.stream = x.stream) (hlost : x'.task.lost = x.task.lost) : Puts x [] x' := by
  refine ⟨[], by rw [hstream, List.append_nil], ?_⟩
  intro bytes inbox h
  rwa [List.append_nil, List.append_nil, hlost]

theorem Puts.trans (h : Puts x frames x') (h' : Puts x' frames' x'') : Puts x (frames ++ frames') x'' := by
  obtain ⟨more, hstream, hconveys⟩ := h
  obtain ⟨more', hstream', hconveys'⟩ := h'
  refine ⟨more ++ more', by rw [hstream', hstream, List.append_assoc], ?_⟩
  intro bytes inbox hbytes
  have hboth := hconveys' (hconveys hbytes)
  rwa [List.append_assoc, List.append_assoc] at hboth

/-- A write puts the whole frame through, or as much as came before it failed. -/
theorem write_puts (hlost : x.task.lost = false) {frame : Frame} (hwithin : frame.Within) :
    Puts x [frame] { x with task := x.task.write frame, stream := x.stream ++ x.puts frame } := by
  have hencode : frame.encode = .ok (frameCodec.write frame) := Frame.encode_eq_ok.2 ⟨rfl, hwithin⟩
  refine ⟨x.puts frame, rfl, ?_⟩
  intro bytes inbox h
  rw [hlost] at h
  rw [puts, hencode, Task.write]
  dsimp only
  split_ifs with hwrites
  · rw [hlost]
    exact h.write hwithin
  · exact h.tear hwithin _

theorem perform_puts (x : Socket) (effect : Effect)
    (hwithin : ∀ frame ∈ [effect].filterMap Effect.frame?, frame.Within) :
    Puts x ([effect].filterMap Effect.frame?) (x.perform effect) := by
  cases effect with
  | send frame =>
      rw [perform]
      split_ifs with hlost
      · refine ⟨[], by rw [List.append_nil], ?_⟩
        intro bytes inbox h
        rw [hlost] at h ⊢
        rw [List.append_nil]
        exact h.lose _
      · exact write_puts (Bool.eq_false_iff.2 hlost) (hwithin frame List.mem_cons_self)
  | setDeadline | cancelDeadline | closeTransport => exact .idle rfl rfl
  | requestSas words peer => exact .idle rfl (Task.emit_lost ..)
  | deliver content => exact .idle rfl (Task.emit_lost ..)
  | notify event => cases event <;> exact .idle rfl (Task.emit_lost ..)

theorem process_puts (x : Socket) (effects : List Effect)
    (hwithin : ∀ frame ∈ effects.filterMap Effect.frame?, frame.Within) :
    Puts x (effects.filterMap Effect.frame?) (x.process effects) := by
  induction effects generalizing x with
  | nil => exact .idle rfl rfl
  | cons effect effects ih =>
      have hsplit : (effect :: effects).filterMap Effect.frame? =
          [effect].filterMap Effect.frame? ++ effects.filterMap Effect.frame? := by
        rw [← List.filterMap_append]
        rfl
      rw [hsplit] at hwithin ⊢
      have hhead := perform_puts x effect fun frame hf => hwithin frame (List.mem_append_left _ hf)
      exact hhead.trans (ih (x.perform effect) fun frame hf => hwithin frame (List.mem_append_right _ hf))

variable [Ciborium] [Primitives]

theorem handle_puts (hf : x.task.engine.Fits) (hp : x.task.engine.Pinned) (i : Input) :
    Puts x ((x.task.engine.handle i).2.filterMap Effect.frame?) (x.handle i) := by
  obtain ⟨more, hstream, hconveys⟩ := process_puts
    { x with
      task := { x.task with engine := (x.task.engine.handle i).1 }
      calls := x.calls ++ [record Engine.handle x.task.engine i] }
    (x.task.engine.handle i).2 (handle_within hf hp i)
  exact ⟨more, hstream, hconveys⟩

def settle (x : Socket) : Socket :=
  let x := if x.task.lost ∧ x.task.engine.phase ≠ .closed then x.handle .transportClosed else x
  if x.task.orphaned ∧ x.task.engine.phase ≠ .closed then x.handle (.localClose .shutdown) else x

theorem apply_eq (x : Socket) (i : Input) : x.apply i = (x.handle i).settle := rfl

end Socket

/-- Two tasks with a byte stream each way. Each takes its rounds at once: what
the other one does meanwhile, it could do before or after. -/
structure Cable where
  ends : Side → Socket
  /-- How much each side has read of the stream of the other. -/
  taken : Side → Nat

def readChunk : Nat := 16 * 1024

instance (x : Socket) : DecidablePred x.Ready
  | .poll => inferInstanceAs (Decidable (x.draining = true))
  | .read _ | .readEnded | .message _ | .command _ | .due =>
      inferInstanceAs (Decidable (x.draining = false ∧ x.task.closing = false))

namespace Cable

inductive Act
  | reads (side : Side) (count : Nat)
  | goes (side : Side) (round : Round)

variable [Ciborium] [Primitives]

def flight (self : Cable) (s : Side) : List UInt8 := (self.ends s.other).stream.drop (self.taken s)

def put (self : Cable) (s : Side) (x : Socket) : Cable := { self with ends := Function.update self.ends s x }

def receive (self : Cable) (s : Side) (x : Socket) (count : Nat) : Cable :=
  { self.put s x with taken := Function.update self.taken s (self.taken s + count) }

/-- A read brings some of the bytes in flight; a read may also end at any time, as
a deadline may pass. -/
def step (self : Cable) : Act → Option Cable
  | .reads s count =>
      let chunk := (self.flight s).take count
      if (self.ends s).Ready (.read chunk) ∧ 0 < count ∧ count ≤ readChunk ∧ count ≤ (self.flight s).length then
        some (self.receive s ((self.ends s).round (.read chunk)) count)
      else none
  | .goes _ (.read _) => none
  | .goes s round => if (self.ends s).Ready round then some (self.put s ((self.ends s).round round)) else none

section Moves

variable (w : Cable) (s : Side) (x y : Socket) (count : Nat)

omit [Ciborium] [Primitives]

@[simp] theorem put_ends : (w.put s x).ends s = x := Function.update_self ..

@[simp] theorem put_ends_other : (w.put s x).ends s.other = w.ends s.other :=
  Function.update_of_ne (Side.other_ne s) ..

@[simp] theorem put_taken : (w.put s x).taken = w.taken := rfl

@[simp] theorem put_put : (w.put s x).put s y = w.put s y := by
  rw [put, put, put, Function.update_idem]

@[simp] theorem put_self : w.put s (w.ends s) = w := by
  rw [put, Function.update_eq_self]

@[simp] theorem put_flight : (w.put s x).flight s = w.flight s := by
  rw [flight, flight, put_ends_other, put_taken]

@[simp] theorem receive_ends : (w.receive s x count).ends s = x := put_ends ..

@[simp] theorem receive_ends_other : (w.receive s x count).ends s.other = w.ends s.other := put_ends_other ..

@[simp] theorem receive_taken : (w.receive s x count).taken s = w.taken s + count := Function.update_self ..

@[simp] theorem receive_taken_other : (w.receive s x count).taken s.other = w.taken s.other :=
  Function.update_of_ne (Side.other_ne s) ..

@[simp] theorem receive_zero : w.receive s x 0 = w.put s x := by
  rw [receive, Nat.add_zero, Function.update_eq_self]
  rfl

@[simp] theorem receive_flight : (w.receive s x count).flight s = (w.flight s).drop count := by
  rw [flight, flight, receive_ends_other, receive_taken, List.drop_drop]

end Moves

/-- What can happen to two engines besides the start: no frame comes but out of the
channel, and nothing that is no frame. -/
def Genuine : Action Input → Prop
  | .deliver _ => True
  | .input _ (.frameReceived _) | .input _ (.malformed _) | .input _ .start => False
  | .input _ _ => True

abbrev Reaches : Connection → Connection → Prop :=
  Relation.ReflTransGen (Link.Next peers (fun _ => Genuine) fun _ => True)

structure Runs (start : Engine) (permit : Bool) (x : Socket) (e : Engine)
    (calls : List (Record Engine Input (List Effect))) : Prop where
  follows : ∃ inputs, Task.Follows start permit inputs x.task ∧ x.calls = trace Engine.handle start inputs
  pinned : x.task.engine.Pinned
  engine_eq : x.task.engine = e
  calls_eq : x.calls = calls

/-- Two tasks over byte streams as two engines over channels: what is in flight
and in the buffers stands for the frames in the inboxes. -/
structure Meets (start : Side → Engine) (permit : Side → Bool) (w : Cable) (d : Connection) : Prop where
  runs : ∀ s, Runs (start s) (permit s) (w.ends s) (d.node s) (d.calls s)
  taken : ∀ s, w.taken s ≤ (w.ends s.other).stream.length
  conveys : ∀ s, frameCodec.Conveys ((w.ends s).decoder.buffer ++ w.flight s) (d.inbox s) (w.ends s.other).task.lost

/-- A change of one side that neither its engine nor its stream sees. -/
structure Alike (x y : Socket) : Prop where
  engine_eq : y.task.engine = x.task.engine
  calls_eq : y.calls = x.calls
  stream_eq : y.stream = x.stream
  lost_eq : y.task.lost = x.task.lost
  follows : ∀ {start permit inputs}, Task.Follows start permit inputs x.task → Task.Follows start permit inputs y.task

variable {start : Side → Engine} {permit : Side → Bool} {w : Cable} {d : Connection} {s : Side}

theorem Alike.runs {x y : Socket} (h : Alike x y) {start e : Engine} {permit : Bool}
    {calls : List (Record Engine Input (List Effect))} (hx : Runs start permit x e calls) :
    Runs start permit y e calls := by
  obtain ⟨⟨inputs, hfollows, hcalls⟩, hpinned, hengine, hlist⟩ := hx
  refine ⟨⟨inputs, h.follows hfollows, h.calls_eq.trans hcalls⟩, ?_, h.engine_eq.trans hengine, h.calls_eq.trans hlist⟩
  rw [h.engine_eq]
  exact hpinned

theorem Meets.receive (h : Meets start permit w d) {x : Socket} (hx : Alike (w.ends s) x) (count : Nat)
    {rest : List Frame} (hcount : w.taken s + count ≤ (w.ends s.other).stream.length)
    (hconveys : frameCodec.Conveys (x.decoder.buffer ++ (w.flight s).drop count) rest (w.ends s.other).task.lost) :
    Meets start permit (w.receive s x count) (d.take s rest) := by
  refine ⟨?_, ?_, ?_⟩ <;> intro t <;> obtain rfl | rfl := Side.eq_or_other s t
  · rw [receive_ends]
    exact hx.runs (h.runs t)
  · rw [receive_ends_other]
    exact h.runs s.other
  · rw [receive_taken, receive_ends_other]
    exact hcount
  · have htaken := h.taken s.other
    rw [Side.other_other] at htaken ⊢
    rw [receive_taken_other, receive_ends, hx.stream_eq]
    exact htaken
  · rw [Link.take_inbox, receive_ends, receive_ends_other, receive_flight]
    exact hconveys
  · have hside := h.conveys s.other
    rw [flight, Side.other_other] at hside
    rw [Link.take_inbox_other, flight, Side.other_other, receive_ends, receive_ends_other, receive_taken_other,
      hx.stream_eq, hx.lost_eq]
    exact hside

/-- An input of one side is one call of its engine; what it writes stands for
what it sends. -/
theorem Meets.handle (h : Meets start permit w d) (s : Side) (i : Input) :
    Meets start permit (w.put s ((w.ends s).handle i)) (d.call peers s i) := by
  obtain ⟨⟨inputs, hfollows, hcalls⟩, hpinned, hengine, hlist⟩ := h.runs s
  have hpost : ((w.ends s).handle i).task.engine = (peers.step (d.node s) i).1 := by
    rw [Socket.handle_task, Task.handle_engine, hengine]
    rfl
  obtain ⟨more, hstream, hconveys⟩ := Socket.handle_puts hfollows.fits hpinned i
  refine ⟨?_, ?_, ?_⟩ <;> intro t <;> obtain rfl | rfl := Side.eq_or_other s t
  · rw [put_ends, Link.call_node, Link.call_calls]
    refine ⟨⟨inputs ++ [i], ?_, ?_⟩, ?_, hpost, ?_⟩
    · rw [Socket.handle_task]
      exact hfollows.handle i
    · rw [Socket.handle_calls, hcalls, trace_append, hfollows.engine_eq]
      rfl
    · rw [Socket.handle_task, Task.handle_engine]
      exact handle_pinned hfollows.fits hpinned i
    · rw [Socket.handle_calls, hlist, hengine]
      rfl
  · rw [put_ends_other, Link.call_node_other, Link.call_calls_other]
    exact h.runs s.other
  · rw [put_taken, put_ends_other]
    exact h.taken t
  · have htaken := h.taken s.other
    rw [Side.other_other] at htaken ⊢
    rw [put_taken, put_ends, hstream, List.length_append]
    exact htaken.trans (Nat.le_add_right ..)
  · rw [put_flight, put_ends, put_ends_other, Link.call_inbox, Socket.handle_decoder]
    exact h.conveys t
  · have hside := h.conveys s.other
    have htaken := h.taken s.other
    rw [Side.other_other] at hside htaken
    rw [flight, Side.other_other] at hside
    rw [Link.call_inbox_other, flight, Side.other_other, put_ends, put_ends_other, put_taken, hstream,
      List.drop_append_of_le_length htaken, ← List.append_assoc, ← hengine]
    exact hconveys hside

theorem Meets.input (h : Meets start permit w d) {i : Input} (hi : Genuine (.input s i)) :
    ∃ d', Reaches d d' ∧ Meets start permit (w.put s ((w.ends s).handle i)) d' :=
  ⟨_, .single ⟨.input s i, hi, rfl, trivial⟩, h.handle s i⟩

theorem Meets.input_if (h : Meets start permit w d) {i : Input} (hi : Genuine (.input s i)) (p : Prop) [Decidable p] :
    ∃ d', Reaches d d' ∧ Meets start permit (w.put s (if p then (w.ends s).handle i else w.ends s)) d' := by
  split_ifs
  · exact h.input hi
  · rw [put_self]
    exact ⟨d, .refl, h⟩

theorem Meets.settle (h : Meets start permit w d) (s : Side) :
    ∃ d', Reaches d d' ∧ Meets start permit (w.put s (w.ends s).settle) d' := by
  obtain ⟨d₁, hreach, h₁⟩ := h.input_if (i := .transportClosed) (s := s) trivial
    ((w.ends s).task.lost ∧ (w.ends s).task.engine.phase ≠ .closed)
  rw [Socket.settle]
  generalize (if (w.ends s).task.lost ∧ (w.ends s).task.engine.phase ≠ .closed then
    (w.ends s).handle .transportClosed else w.ends s) = x at h₁ ⊢
  obtain ⟨d₂, hreach', h₂⟩ := h₁.input_if (i := .localClose .shutdown) (s := s) trivial
    (x.task.orphaned ∧ x.task.engine.phase ≠ .closed)
  rw [put_put, put_ends] at h₂
  exact ⟨d₂, hreach.trans hreach', h₂⟩

theorem Meets.apply (h : Meets start permit w d) {i : Input} (hi : Genuine (.input s i)) :
    ∃ d', Reaches d d' ∧ Meets start permit (w.put s ((w.ends s).apply i)) d' := by
  obtain ⟨d₁, hreach, h₁⟩ := h.input hi
  obtain ⟨d₂, hreach', h₂⟩ := h₁.settle s
  rw [put_put, put_ends] at h₂
  exact ⟨d₂, hreach.trans hreach', h₂⟩

/-- A frame that comes out of the bytes is the next one of the channel. -/
theorem Meets.frame (h : Meets start permit w d) {frame : Frame} {decoder : FrameDecoder}
    (hnext : (w.ends s).decoder.nextFrame = (.ok (some frame), decoder)) :
    ∃ rest, d.inbox s = frame :: rest ∧
      Meets start permit (w.put s ({ w.ends s with decoder }.handle (.frameReceived frame)))
        ((d.take s rest).call peers s (.frameReceived frame)) := by
  rw [FrameDecoder.nextFrame_eq] at hnext
  cases hread : Frame.reading (w.ends s).decoder.buffer with
  | item first n =>
      rw [hread] at hnext
      obtain ⟨hfirst, rfl⟩ := Prod.mk.inj hnext
      obtain rfl : first = frame := by simpa using hfirst
      obtain ⟨rest, hinbox, hconveys⟩ := (h.conveys s).take hread
      have halike : Alike (w.ends s) { w.ends s with decoder := ⟨(w.ends s).decoder.buffer.drop n⟩ } :=
        ⟨rfl, rfl, rfl, rfl, id⟩
      have htaken := h.receive halike 0 (h.taken s) hconveys
      rw [receive_zero] at htaken
      have hcall := htaken.handle s (.frameReceived first)
      rw [put_put, put_ends] at hcall
      exact ⟨rest, hinbox, hcall⟩
  | failed e => simp [hread] at hnext
  | more => simp [hread] at hnext

theorem Meets.deliver (h : Meets start permit w d) {frame : Frame} {decoder : FrameDecoder}
    (hnext : (w.ends s).decoder.nextFrame = (.ok (some frame), decoder)) :
    ∃ d', Reaches d d' ∧ Meets start permit (w.put s ({ w.ends s with decoder }.apply (.frameReceived frame))) d' := by
  obtain ⟨rest, hinbox, hcall⟩ := h.frame hnext
  have hstep : Link.Next peers (fun _ => Genuine) (fun _ => True) d
      ((d.take s rest).call peers s (.frameReceived frame)) := by
    refine ⟨.deliver s, trivial, ?_, trivial⟩
    rw [Link.step, hinbox]
    rfl
  obtain ⟨d', hreach, h'⟩ := hcall.settle s
  rw [put_put, put_ends] at h'
  exact ⟨d', .head hstep hreach, h'⟩

theorem Meets.wellFormed (h : Meets start permit w d) {e : DecodeError} {decoder : FrameDecoder} :
    (w.ends s).decoder.nextFrame ≠ (.error e, decoder) := by
  intro hnext
  rw [FrameDecoder.nextFrame_eq] at hnext
  cases hread : Frame.reading (w.ends s).decoder.buffer with
  | item first n => simp [hread] at hnext
  | failed e => exact (h.conveys s).not_failed hread
  | more => simp [hread] at hnext

theorem Meets.alike (h : Meets start permit w d) {x : Socket} (hx : Alike (w.ends s) x)
    (hdecoder : x.decoder = (w.ends s).decoder) : Meets start permit (w.put s x) d := by
  have hconveys := h.conveys s
  rw [← hdecoder] at hconveys
  have htaken := h.receive hx 0 (h.taken s) hconveys
  rwa [receive_zero, Link.take_inbox_self] at htaken

theorem Meets.fireDue (h : Meets start permit w d) (s : Side) :
    ∃ d', Reaches d d' ∧ Meets start permit (w.put s (w.ends s).fireDue) d' := by
  have hfold (due : List (Instant × DeadlineId)) : ∀ {d : Connection} {x : Socket}, Meets start permit (w.put s x) d →
      ∃ d', Reaches d d' ∧ Meets start permit (w.put s (due.foldl (fun self deadline =>
        { self with task := self.task.forget deadline.2 }.apply (.timeout deadline.2)) x)) d' := by
    induction due with
    | nil => exact fun h => ⟨_, .refl, h⟩
    | cons deadline due ih =>
        intro d x h
        have halike : Alike ((w.put s x).ends s) { x with task := x.task.forget deadline.2 } := by
          rw [put_ends]
          exact ⟨rfl, rfl, rfl, rfl, fun hfollows => { hfollows with }⟩
        have hforget := h.alike halike (by rw [put_ends])
        rw [put_put] at hforget
        obtain ⟨d₁, hreach, h₁⟩ := hforget.apply (i := .timeout deadline.2) (s := s) trivial
        rw [put_put, put_ends] at h₁
        obtain ⟨d₂, hreach', h₂⟩ := ih h₁
        exact ⟨d₂, hreach.trans hreach', h₂⟩
  exact hfold _ (h.alike ⟨rfl, rfl, rfl, rfl, fun hfollows => { hfollows with }⟩ rfl)

theorem Meets.read (h : Meets start permit w d) {count : Nat} (hcount : count ≤ (w.flight s).length) :
    Meets start permit (w.receive s ((w.ends s).round (.read ((w.flight s).take count))) count) d := by
  have hconveys := h.conveys s
  rw [← List.take_append_drop count (w.flight s), ← List.append_assoc] at hconveys
  have htaken : w.taken s + count ≤ (w.ends s.other).stream.length := by
    have hle := h.taken s
    rw [flight, List.length_drop] at hcount
    omega
  have hreceive := h.receive (x := (w.ends s).round (.read ((w.flight s).take count))) ⟨rfl, rfl, rfl, rfl, id⟩ count
    htaken hconveys
  rwa [Link.take_inbox_self] at hreceive

theorem Meets.poll (h : Meets start permit w d) (s : Side) : (w.ends s).poll = { w.ends s with draining := false } ∨
    ∃ frame decoder, (w.ends s).decoder.nextFrame = (.ok (some frame), decoder) ∧
      (w.ends s).poll = { w.ends s with decoder }.apply (.frameReceived frame) := by
  by_cases hclosing : (w.ends s).task.closing = true
  · exact .inl (Socket.poll_closing hclosing)
  have hopen : (w.ends s).task.closing = false := Bool.eq_false_iff.2 hclosing
  cases hnext : (w.ends s).decoder.nextFrame with
  | mk result decoder =>
      rcases result with e | _ | frame
      · exact absurd hnext h.wellFormed
      · rw [Socket.poll_none hopen hnext, FrameDecoder.nextFrame_none hnext]
        exact .inl rfl
      · exact .inr ⟨frame, decoder, rfl, Socket.poll_some hopen hnext⟩

/-- Every step over the bytes is a run of the engines over their channels. -/
theorem Meets.step (h : Meets start permit w d) {act : Act} {w' : Cable} (hstep : w.step act = some w') :
    ∃ d', Reaches d d' ∧ Meets start permit w' d' := by
  cases act with
  | reads s count =>
      obtain ⟨⟨-, -, -, hcount⟩, hstep⟩ := Option.ite_none_right_eq_some.1 hstep
      obtain rfl := Option.some.inj hstep
      exact ⟨d, .refl, h.read hcount⟩
  | goes s round =>
      cases round with
      | read => cases hstep
      | readEnded =>
          obtain ⟨-, hstep⟩ := Option.ite_none_right_eq_some.1 hstep
          obtain rfl := Option.some.inj hstep
          exact h.apply (i := .transportClosed) trivial
      | message content =>
          obtain ⟨-, hstep⟩ := Option.ite_none_right_eq_some.1 hstep
          obtain rfl := Option.some.inj hstep
          exact h.apply (i := .localSend content) trivial
      | command command =>
          obtain ⟨-, hstep⟩ := Option.ite_none_right_eq_some.1 hstep
          obtain rfl := Option.some.inj hstep
          rcases command with _ | ⟨reason⟩ | _ | ⟨approved⟩
          · exact h.apply (i := .localClose .shutdown) trivial
          · exact h.apply (i := .localClose reason) trivial
          · exact h.apply (i := .requestRekey) trivial
          · exact h.apply (i := .sasDecision approved) trivial
      | due =>
          obtain ⟨-, hstep⟩ := Option.ite_none_right_eq_some.1 hstep
          obtain rfl := Option.some.inj hstep
          exact h.fireDue s
      | poll =>
          obtain ⟨-, hstep⟩ := Option.ite_none_right_eq_some.1 hstep
          obtain rfl := Option.some.inj hstep
          rcases h.poll s with hpoll | ⟨frame, decoder, hnext, hpoll⟩
          · rw [Socket.round, hpoll]
            exact ⟨d, .refl, h.alike ⟨rfl, rfl, rfl, rfl, id⟩ rfl⟩
          · rw [Socket.round, hpoll]
            exact h.deliver hnext

section Start

variable (identity : Side → IdentityKeypair) (entropy : Side → Entropy) (limit : Side → Nat) (permit : Side → Bool)
  (world : Side → World) (tears : Side → Nat → Nat)

def spawned : Cable where
  ends s := Socket.new (sideEngine identity entropy limit s) (permit s) (world s) (tears s)
  taken _ := 0

def started : Cable where
  ends s := (Socket.new (sideEngine identity entropy limit s) (permit s) (world s) (tears s)).apply .start
  taken _ := 0

theorem meets_spawned : Meets (sideEngine identity entropy limit) permit (spawned identity entropy limit permit world tears)
    (Link.init (sideEngine identity entropy limit)) where
  runs _ :=
    { follows := ⟨[], Task.new_follows .., rfl⟩
      pinned := Engine.configured_pinned ..
      engine_eq := rfl
      calls_eq := rfl }
  taken _ := le_rfl
  conveys _ := Codec.Conveys.nil frameCodec

theorem meets_started : ∃ d, Reaches (Connection.started identity entropy limit) d ∧
    Meets (sideEngine identity entropy limit) permit (started identity entropy limit permit world tears) d := by
  have hstart := ((meets_spawned identity entropy limit permit world tears).handle .left .start).handle .right .start
  obtain ⟨d₁, hreach, h₁⟩ := hstart.settle .left
  obtain ⟨d₂, hreach', h₂⟩ := h₁.settle .right
  refine ⟨d₂, hreach.trans hreach', ?_⟩
  refine (congrArg (Meets _ permit · d₂) ?_).mpr h₂
  refine congrArg (fun ends => Cable.mk ends fun _ => 0) (funext fun s => ?_)
  cases s with
  | left => rfl
  | right => rfl

end Start

def Next (allowed : Act → Prop) (kept : Cable → Prop) (w w' : Cable) : Prop :=
  ∃ act, allowed act ∧ w.step act = some w' ∧ kept w'

def pending (self : Cable) (s : Side) : List UInt8 := (self.ends s).decoder.buffer ++ self.flight s

omit [Ciborium] [Primitives] in
/-- What is pending decodes to the frames that are due, up to the loss of the stream. -/
theorem pending_decodes {bytes : List UInt8} {inbox : List Frame} {lost : Bool}
    (h : frameCodec.Conveys bytes inbox lost) : (Frame.decodeAll bytes).2 = .truncatedFrame ∧
      ∃ left, inbox = (Frame.decodeAll bytes).1 ++ left ∧ (lost = false → left = []) := by
  obtain ⟨hnone, left, hitems, hleft⟩ := h.drain
  obtain ⟨hframes, herror⟩ := Frame.decodeAll_eq bytes
  refine ⟨?_, left, ?_, fun hkept => (hleft hkept).1⟩
  · have hend : DecodeError.ofDecode (Frame.decodeAll bytes).2 = none := herror.trans hnone
    generalize (Frame.decodeAll bytes).2 = error at hend
    cases error <;> first | rfl | cases hend
  · rw [hframes]
    exact hitems

end Cable

variable [Ciborium] [Primitives]

/-- Two tasks over byte streams, however the bytes are cut, whichever writes fail
and wherever they tear a frame, are two engines over channels of frames: each
engine is handed only what the other has sent, and all of it in its order until
the stream is lost; what is on the way decodes to the frames that are due. -/
theorem streams_refine_channels (identity : Side → IdentityKeypair) (entropy : Side → Entropy) (limit : Side → Nat)
    (permit : Side → Bool) (world : Side → World) (tears : Side → Nat → Nat) {w : Cable}
    (hrun : Relation.ReflTransGen (Cable.Next (fun _ => True) fun _ => True)
      (Cable.started identity entropy limit permit world tears) w) :
    ∃ d, Cable.Reaches (Connection.started identity entropy limit) d ∧ ∀ s,
      (w.ends s).task.engine = d.node s ∧ (w.ends s).calls = d.calls s ∧
      (Frame.decodeAll (w.pending s)).2 = .truncatedFrame ∧
      (∃ left, d.inbox s = (Frame.decodeAll (w.pending s)).1 ++ left ∧ ((w.ends s.other).task.lost = false → left = [])) ∧
      (w.ends s).task.events.Sublist (reports (d.effects s)) ∧
      ((w.ends s).task.orphaned = false → (w.ends s).task.events = reports (d.effects s)) := by
  have hmeets : ∃ d, Cable.Reaches (Connection.started identity entropy limit) d ∧
      Cable.Meets (sideEngine identity entropy limit) permit w d := by
    induction hrun with
    | refl => exact Cable.meets_started identity entropy limit permit world tears
    | tail _ hnext ih =>
        obtain ⟨d, hreach, hmeets⟩ := ih
        obtain ⟨act, -, hstep, -⟩ := hnext
        obtain ⟨d', hreach', hmeets'⟩ := hmeets.step hstep
        exact ⟨d', hreach.trans hreach', hmeets'⟩
  obtain ⟨d, hreach, hmeets⟩ := hmeets
  refine ⟨d, hreach, ?_⟩
  intro s
  obtain ⟨⟨inputs, hfollows, hcalls⟩, -, hengine, hlist⟩ := hmeets.runs s
  obtain ⟨hend, hleft⟩ := Cable.pending_decodes (hmeets.conveys s)
  have heffects : d.effects s = (sideEngine identity entropy limit s).outputs inputs := by
    rw [Connection.effects, ← hlist, hcalls]
    rfl
  rw [heffects]
  exact ⟨hengine, hlist, hend, hleft, hfollows.events, hfollows.heard⟩

end Ruxmsg

namespace Ruxmsg

open Library.Duplex Sample

def Cable.run (w : Cable) : List Cable.Act → Option Cable
  | [] => some w
  | act :: acts => (w.step act).bind fun w' => w'.run acts

theorem Cable.reaches_of_run {acts : List Cable.Act} {w w' : Cable} (h : w.run acts = some w') :
    Relation.ReflTransGen (Cable.Next (fun _ => True) fun _ => True) w w' := by
  induction acts generalizing w with
  | nil =>
      obtain rfl := Option.some.inj h
      exact .refl
  | cons act acts ih =>
      obtain ⟨w₁, hstep, h⟩ := Option.bind_eq_some_iff.1 h
      exact .head ⟨act, trivial, hstep, trivial⟩ (ih h)

/-- Two tasks; the stream of the initiator breaks while it writes its HELLO, after
twenty bytes of it. -/
def tornCable : Cable :=
  Cable.started (fun | .left => leftIdentity | .right => rightIdentity)
    (fun | .left => entropy 100 | .right => entropy 200) (fun _ => rekeyMessageLimit)
    (fun | .left => false | .right => true)
    (fun | .left => { sampleWorld with writes := fun k => k < 3 } | .right => sampleWorld) fun _ _ => 20

theorem streams_refine_channels_torn : ∃ w, tornCable.run [.reads .right 48, .goes .right .poll, .goes .right .poll,
      .reads .left 103, .goes .left .poll, .goes .left .poll, .reads .right 7, .goes .right .poll] = some w ∧
    (w.pending .right).length = 20 ∧ (Frame.decodeAll (w.pending .right)).2 = .truncatedFrame := by
  have hrun : (tornCable.run [.reads .right 48, .goes .right .poll, .goes .right .poll, .reads .left 103,
      .goes .left .poll, .goes .left .poll, .reads .right 7, .goes .right .poll]).any
      (fun w => (w.pending .right).length = 20) = true := by
    decide +kernel
  obtain ⟨w, hw, htorn⟩ := (Option.any_eq_true _ _).1 hrun
  obtain ⟨d, -, h⟩ := streams_refine_channels _ _ _ _ _ _ (Cable.reaches_of_run hw)
  exact ⟨w, hw, of_decide_eq_true htorn, (h .right).2.2.1⟩

end Ruxmsg

import Ruxmsg.Decoder
import Ruxmsg.Emissions
import Ruxmsg.Library.Codec

namespace Ruxmsg

open Library.Machine Library.Stream

def frameCodec : Codec UInt8 Frame DecodeError where
  toReader := frameReader
  write frame := frame.header ++ frame.payload
  Writable frame := frame.payload.length ≤ frame.messageType.maxPayload
  read_nil := rfl
  read_write := by
    intro frame hle
    apply Frame.reading_eq_item.2
    refine Frame.decode_eq_ok.2 ⟨hle, ?_, List.prefix_rfl⟩
    rw [List.length_append, Frame.length_header]

/-- A task with its decoder and its end of the byte stream. -/
structure Socket where
  task : Task
  decoder : FrameDecoder
  /-- How many bytes get through when a write fails, by the number of the question. -/
  tears : Nat → Nat
  /-- All that has got onto the stream. -/
  stream : List UInt8
  /-- Whether the loop of `drain_frames` is running. -/
  draining : Bool
  /-- The calls of the engine so far. -/
  calls : List (Record Engine Input (List Effect))

/-- What the loop of `run` takes up next, and one round of the loop of `drain_frames`. -/
inductive Round
  | read (chunk : List UInt8)
  | readEnded
  | message (content : List UInt8)
  | command (command : Option Control)
  | due
  | poll

/-- The wake that a round stands for, unless it has to do with `drain_frames`. -/
def Round.wake? : Round → Option Wake
  | .readEnded => some .readEnded
  | .message content => some (.message content)
  | .command control => some (.command control)
  | .due => some .due
  | .read _ | .poll => none

namespace Socket

def new (engine : Engine) (permit : Bool) (world : World) (tears : Nat → Nat) : Socket :=
  { task := Task.new engine permit world
    decoder := FrameDecoder.new
    tears
    stream := []
    draining := false
    calls := [] }

def puts (self : Socket) (frame : Frame) : List UInt8 :=
  match frame.encode with
  | .ok bytes =>
      if self.task.world.writes self.task.questions then bytes else bytes.take (self.tears self.task.questions)
  | .error _ => []

def perform (self : Socket) : Effect → Socket
  | .send frame =>
      if ¬ self.task.lost then
        { self with task := self.task.write frame, stream := self.stream ++ self.puts frame }
      else self
  | effect => { self with task := self.task.perform effect }

def process (self : Socket) (effects : List Effect) : Socket := effects.foldl perform self

variable [Ciborium] [Primitives]

def handle (self : Socket) (input : Input) : Socket :=
  let (engine, effects) := self.task.engine.handle input
  { self with
    task := { self.task with engine }
    calls := self.calls ++ [record Engine.handle self.task.engine input] }.process effects

def apply (self : Socket) (input : Input) : Socket :=
  let self := self.handle input
  let self := if self.task.lost ∧ self.task.engine.phase ≠ .closed then self.handle .transportClosed else self
  if self.task.orphaned ∧ self.task.engine.phase ≠ .closed then self.handle (.localClose .shutdown) else self

def fireDue (self : Socket) : Socket :=
  let now := self.task.world.now self.task.questions
  let self := { self with task := { self.task with questions := self.task.questions + 1 } }
  (self.task.due now).foldl
    (fun self deadline => { self with task := self.task.forget deadline.2 }.apply (.timeout deadline.2)) self

def poll (self : Socket) : Socket :=
  if self.task.closing then { self with draining := false }
  else
    match self.decoder.nextFrame with
    | (.ok (some frame), decoder) => { self with decoder }.apply (.frameReceived frame)
    | (.ok none, decoder) => { self with decoder, draining := false }
    | (.error .unsupportedVersion, decoder) => { self with decoder }.apply (.malformed false)
    | (.error .malformed, decoder) => { self with decoder }.apply (.malformed true)

def Ready (self : Socket) : Round → Prop
  | .poll => self.draining = true
  | _ => self.draining = false ∧ self.task.closing = false

def round (self : Socket) : Round → Socket
  | .read chunk => { self with decoder := self.decoder.push chunk, draining := true }
  | .readEnded => self.apply .transportClosed
  | .message content => self.apply (.localSend content)
  | .command command =>
      let input : Input := match command with
        | some (.close reason) => .localClose reason
        | some .requestRekey => .requestRekey
        | some (.sas approved) => .sasDecision approved
        | none => .localClose .shutdown
      self.apply input
  | .due => self.fireDue
  | .poll => self.poll

section Task

variable (self : Socket)

omit [Ciborium] [Primitives] in
@[simp] theorem perform_task (effect : Effect) : (self.perform effect).task = self.task.perform effect := by
  cases effect with
  | send frame =>
      rw [perform, Task.perform]
      split_ifs
      · rfl
      · rfl
  | _ => rfl

omit [Ciborium] [Primitives] in
@[simp] theorem process_task (effects : List Effect) : (self.process effects).task = self.task.process effects := by
  induction effects generalizing self with
  | nil => rfl
  | cons effect effects ih =>
      refine (ih (self.perform effect)).trans ?_
      rw [perform_task]
      rfl

@[simp] theorem handle_task (input : Input) : (self.handle input).task = self.task.handle input :=
  process_task _ _

@[simp] theorem apply_task (input : Input) : (self.apply input).task = self.task.apply input := by
  rw [apply, Task.apply]
  simp only [apply_ite Socket.task, handle_task]

section Kept

variable {α : Type} {f : Socket → α}
  (hf : ∀ socket task stream, f { socket with task := task, stream := stream } = f socket)
  (hcalls : ∀ socket calls, f { socket with calls := calls } = f socket)

include hf

omit [Ciborium] [Primitives] in
theorem process_kept (effects : List Effect) : f (self.process effects) = f self := by
  induction effects generalizing self with
  | nil => rfl
  | cons effect effects ih =>
      refine (ih (self.perform effect)).trans ?_
      cases effect with
      | send frame =>
          rw [perform]
          split_ifs
          · rfl
          · exact hf ..
      | _ => exact hf ..

include hcalls

theorem handle_kept (input : Input) : f (self.handle input) = f self := by
  have hboth (task : Task) (calls : List (Record Engine Input (List Effect))) :
      f { self with task, calls } = f self := (hf { self with calls } task self.stream).trans (hcalls self calls)
  exact (process_kept _ hf _).trans (hboth ..)

theorem apply_kept (input : Input) : f (self.apply input) = f self := by
  rw [apply]
  simp only [apply_ite f, handle_kept _ hf hcalls, ite_self]

end Kept

@[simp] theorem handle_decoder (input : Input) : (self.handle input).decoder = self.decoder :=
  handle_kept self (f := Socket.decoder) (fun _ _ _ => rfl) (fun _ _ => rfl) input

@[simp] theorem handle_calls (input : Input) :
    (self.handle input).calls = self.calls ++ [record Engine.handle self.task.engine input] :=
  process_kept _ (f := Socket.calls) (fun _ _ _ => rfl) _

@[simp] theorem apply_decoder (input : Input) : (self.apply input).decoder = self.decoder :=
  apply_kept self (f := Socket.decoder) (fun _ _ _ => rfl) (fun _ _ => rfl) input

@[simp] theorem apply_draining (input : Input) : (self.apply input).draining = self.draining :=
  apply_kept self (f := Socket.draining) (fun _ _ _ => rfl) (fun _ _ => rfl) input

theorem fireDue_draining : self.fireDue.draining = self.draining := by
  have hfold (due : List (Instant × DeadlineId)) : ∀ self : Socket,
      (due.foldl (fun self deadline =>
        { self with task := self.task.forget deadline.2 }.apply (.timeout deadline.2)) self).draining =
      self.draining := by
    induction due with
    | nil => exact fun _ => rfl
    | cons deadline due ih =>
        intro self
        refine (ih _).trans ?_
        rw [apply_draining]
  exact hfold _ _

theorem fireDue_task : self.fireDue.task = self.task.fireDue := by
  have hfold (due : List (Instant × DeadlineId)) : ∀ self : Socket,
      (due.foldl (fun self deadline =>
        { self with task := self.task.forget deadline.2 }.apply (.timeout deadline.2)) self).task =
      due.foldl (fun task deadline => (task.forget deadline.2).apply (.timeout deadline.2)) self.task := by
    induction due with
    | nil => exact fun _ => rfl
    | cons deadline due ih =>
        intro self
        refine (ih _).trans ?_
        rw [apply_task]
        rfl
  exact hfold _ _

end Task

end Socket

def DecodeError.respond : DecodeError → Bool
  | .unsupportedVersion => false
  | .malformed => true

/-- What the calls of `next_frame` on a buffer come to. -/
def FrameDecoder.results (decoder : FrameDecoder) : List (Except DecodeError Frame) :=
  decoder.drain.1.map .ok ++ decoder.drain.2.1.toList.map .error

section Results

variable {decoder decoder' : FrameDecoder}

theorem FrameDecoder.results_some {frame : Frame} (h : decoder.nextFrame = (.ok (some frame), decoder')) :
    decoder.results = .ok frame :: decoder'.results := by
  rw [results, drain_some h]
  rfl

theorem FrameDecoder.results_none (h : decoder.nextFrame = (.ok none, decoder')) : decoder.results = [] := by
  rw [results, drain_none h]
  rfl

theorem FrameDecoder.nextFrame_none (h : decoder.nextFrame = (.ok none, decoder')) : decoder' = decoder := by
  rw [nextFrame_eq] at h
  split at h
  · cases h
  · cases h
  · exact (Prod.mk.inj h).2.symm

theorem FrameDecoder.results_error {e : DecodeError} (h : decoder.nextFrame = (.error e, decoder')) :
    decoder.results = [.error e] := by
  rw [results, drain_error h]
  rfl

end Results

namespace Socket

variable [Ciborium] [Primitives] {self : Socket} {decoder : FrameDecoder}

theorem poll_closing (h : self.task.closing = true) : self.poll = { self with draining := false } := by
  rw [poll, if_pos h]

theorem poll_some (h : self.task.closing = false) {frame : Frame}
    (hnext : self.decoder.nextFrame = (.ok (some frame), decoder)) :
    self.poll = { self with decoder }.apply (.frameReceived frame) := by
  rw [poll, if_neg (Bool.eq_false_iff.1 h), hnext]

theorem poll_none (h : self.task.closing = false) (hnext : self.decoder.nextFrame = (.ok none, decoder)) :
    self.poll = { self with decoder, draining := false } := by
  rw [poll, if_neg (Bool.eq_false_iff.1 h), hnext]

theorem poll_error (h : self.task.closing = false) {e : DecodeError}
    (hnext : self.decoder.nextFrame = (.error e, decoder)) :
    self.poll = { self with decoder }.apply (.malformed e.respond) := by
  rw [poll, if_neg (Bool.eq_false_iff.1 h), hnext]
  cases e with
  | unsupportedVersion => rfl
  | malformed => rfl

end Socket

theorem FrameDecoder.nextFrame_header {decoder decoder' : FrameDecoder} {frame : Frame}
    (h : decoder.nextFrame = (.ok (some frame), decoder')) : decoder'.buffered + headerSize ≤ decoder.buffered := by
  rw [nextFrame_eq] at h
  cases hread : Frame.reading decoder.buffer with
  | item frame' n =>
      rw [hread] at h
      obtain ⟨-, rfl⟩ := Prod.mk.inj h
      obtain ⟨-, hn, -⟩ := Frame.decode_eq_ok.1 (Frame.reading_eq_item.1 hread)
      have hle : n ≤ decoder.buffer.length := frameReader.item_le hread
      rw [buffered, buffered, List.length_drop]
      omega
  | failed e => simp [hread] at h
  | more => simp [hread] at h

/-- A buffer holds no more results than there are headers in it, and one. -/
theorem FrameDecoder.length_results (decoder : FrameDecoder) :
    decoder.results.length ≤ decoder.buffered / headerSize + 1 := by
  induction decoder using FrameDecoder.drain.induct with
  | case1 decoder frame decoder' hnext _ _ _ _ ih =>
      have hheader := nextFrame_header hnext
      have hdiv : decoder'.buffered / headerSize + 1 ≤ decoder.buffered / headerSize := by
        rw [← Nat.add_div_right _ (by decide : 0 < headerSize)]
        exact Nat.div_le_div_right hheader
      rw [results_some hnext, List.length_cons]
      exact Nat.succ_le_succ (ih.trans hdiv)
  | case2 decoder decoder' hnext =>
      rw [results_none hnext]
      exact Nat.zero_le _
  | case3 decoder e decoder' hnext =>
      rw [results_error hnext]
      exact Nat.le_add_left ..

theorem FrameDecoder.buffered_lt {decoder : FrameDecoder} (h : decoder.results = []) :
    decoder.buffered < headerSize + maxFrameSize := by
  apply Frame.length_of_reading_more
  cases hread : Frame.reading decoder.buffer with
  | item frame n =>
      have hnext := decoder.nextFrame_eq
      rw [hread] at hnext
      rw [results_some hnext] at h
      cases h
  | failed e =>
      have hnext := decoder.nextFrame_eq
      rw [hread] at hnext
      rw [results_error hnext] at h
      cases h
  | more => rfl

variable [Ciborium] [Primitives] {start : Engine} {permit : Bool} {inputs : List Input} {task : Task}

theorem Task.drainFrames_frame (h : task.closing = false) (frame : Frame) (rest : List (Except DecodeError Frame)) :
    task.drainFrames (.ok frame :: rest) = (task.apply (.frameReceived frame)).drainFrames rest := by
  rw [drainFrames, if_neg (Bool.eq_false_iff.1 h)]

theorem Task.drainFrames_error (h : task.closing = false) (e : DecodeError) (rest : List (Except DecodeError Frame)) :
    task.drainFrames (.error e :: rest) = (task.apply (.malformed e.respond)).drainFrames rest := by
  cases e with
  | unsupportedVersion => rw [drainFrames, if_neg (Bool.eq_false_iff.1 h)]; rfl
  | malformed => rw [drainFrames, if_neg (Bool.eq_false_iff.1 h)]; rfl

theorem Task.Follows.malformed (h : Task.Follows start permit inputs task) (respond : Bool) :
    (task.apply (.malformed respond)).closing = true := by
  apply h.closes
  intro e
  by_cases hclosed : e.phase = .closed
  · rw [handle_closed hclosed]
    exact hclosed
  · rw [Engine.handle, if_neg hclosed]
    rfl

namespace Socket

variable {self : Socket}

/-- A loop of `drain_frames` that has ended: it has taken up every frame that had
come whole, or stopped where the task closed. -/
structure Drained (first last : Socket) : Prop where
  draining_eq : last.draining = false
  task_eq : last.task = first.task.drainFrames first.decoder.results
  ends : last.task.closing = true ∨ last.decoder.results = []

theorem drained_closing (h : self.task.closing = true) : Drained self self.poll := by
  rw [poll_closing h]
  refine ⟨rfl, ?_, .inl h⟩
  cases self.decoder.results with
  | nil => rfl
  | cons => exact (if_pos h).symm

/-- The loop ends at the latest one round after its last result. An error does
not shorten the buffer: it ends the loop because it closes the task. -/
theorem drains (h : Task.Follows start permit inputs self.task) :
    ∃ n ≤ self.decoder.results.length + 1, Drained self ((poll^[n]) self) := by
  generalize hdecoder : self.decoder = decoder
  induction decoder using FrameDecoder.drain.induct generalizing self inputs with
  | case1 decoder frame decoder' hnext _ _ _ _ ih =>
      subst hdecoder
      by_cases hclosing : self.task.closing = true
      · exact ⟨1, Nat.le_add_left .., drained_closing hclosing⟩
      have hopen : self.task.closing = false := Bool.eq_false_iff.2 hclosing
      have hpoll := poll_some hopen hnext
      obtain ⟨more, hfollows, -, -⟩ := h.apply (.frameReceived frame)
      rw [← apply_task { self with decoder := decoder' }] at hfollows
      obtain ⟨n, hn, hdrained⟩ := ih hfollows (apply_decoder ..)
      rw [← hpoll] at hdrained
      refine ⟨n + 1, ?_, hdrained.draining_eq, ?_, hdrained.ends⟩
      · rw [FrameDecoder.results_some hnext]
        exact Nat.succ_le_succ hn
      · rw [Function.iterate_succ_apply, hdrained.task_eq, hpoll, apply_task, apply_decoder,
          FrameDecoder.results_some hnext, Task.drainFrames_frame hopen]
  | case2 decoder decoder' hnext =>
      subst hdecoder
      by_cases hclosing : self.task.closing = true
      · exact ⟨1, Nat.le_add_left .., drained_closing hclosing⟩
      have hpoll := poll_none (Bool.eq_false_iff.2 hclosing) hnext
      refine ⟨1, Nat.le_add_left .., ?_⟩
      rw [Function.iterate_one, hpoll]
      refine ⟨rfl, ?_, .inr ?_⟩
      · rw [FrameDecoder.results_none hnext]
        rfl
      · rw [FrameDecoder.nextFrame_none hnext]
        exact FrameDecoder.results_none hnext
  | case3 decoder e decoder' hnext =>
      subst hdecoder
      by_cases hclosing : self.task.closing = true
      · exact ⟨1, Nat.le_add_left .., drained_closing hclosing⟩
      have hopen : self.task.closing = false := Bool.eq_false_iff.2 hclosing
      have hpoll := poll_error hopen hnext
      have htask : self.poll.task = self.task.drainFrames self.decoder.results := by
        rw [hpoll, apply_task, FrameDecoder.results_error hnext, Task.drainFrames_error hopen]
        rfl
      have hclosed : self.poll.task.closing = true := by
        rw [hpoll, apply_task]
        exact h.malformed e.respond
      refine ⟨2, ?_, ?_⟩
      · rw [FrameDecoder.results_error hnext]
        exact le_rfl
      · rw [Function.iterate_succ_apply, Function.iterate_one, poll_closing hclosed]
        exact ⟨rfl, htask, .inl hclosed⟩

def Next (self self' : Socket) : Prop := ∃ round, self.Ready round ∧ self.round round = self'

theorem round_wake {round : Round} {wake : Wake} (h : round.wake? = some wake) (hopen : self.task.closing = false) :
    (self.round round).task = self.task.wake wake ∧ (self.round round).draining = self.draining := by
  cases round with
  | readEnded | message | command =>
      obtain rfl := Option.some.inj h
      refine ⟨(apply_task ..).trans (Eq.symm ?_), apply_draining ..⟩
      exact if_neg (Bool.eq_false_iff.1 hopen)
  | due =>
      obtain rfl := Option.some.inj h
      refine ⟨(fireDue_task self).trans (Eq.symm ?_), fireDue_draining self⟩
      exact if_neg (Bool.eq_false_iff.1 hopen)
  | read | poll => cases h

/-- The wake that a round begins: a read hands over what the decoder then yields. -/
def wake? (self : Socket) : Round → Option Wake
  | .read chunk => some (.read (self.decoder.push chunk).results)
  | round => round.wake?

def wakes (self : Socket) : List Round → List Wake
  | [] => []
  | round :: rounds => (self.wake? round).toList ++ (self.round round).wakes rounds

/-- Rounds that the loops can take one after another. -/
def Takes (self : Socket) : List Round → Prop
  | [] => True
  | round :: rounds => self.Ready round ∧ (self.round round).Takes rounds

def drained (self : Socket) : Task :=
  if self.draining then self.task.drainFrames self.decoder.results else self.task

theorem drainFrames_closing (h : task.closing = true) (decoded : List (Except DecodeError Frame)) :
    task.drainFrames decoded = task := by
  cases decoded with
  | nil => rfl
  | cons => exact if_pos h

theorem drained_of_rest (h : self.draining = false) : self.drained = self.task := by
  rw [drained, h, if_neg Bool.false_ne_true]

theorem round_drained (hfollows : Task.Follows start permit inputs self.task) {round : Round}
    (hready : self.Ready round) : (self.round round).drained = (self.wake? round).toList.foldl Task.wake self.drained := by
  have hwake {wake : Wake} (hround : round.wake? = some wake) (hdraining : self.draining = false)
      (hopen : self.task.closing = false) : (self.round round).drained = self.drained.wake wake := by
    obtain ⟨htask, hkept⟩ := round_wake hround hopen
    rw [drained_of_rest (hkept.trans hdraining), drained_of_rest hdraining, htask]
  cases round with
  | readEnded | message | command | due => exact hwake rfl hready.1 hready.2
  | read chunk =>
      rw [drained_of_rest hready.1]
      exact (if_neg (Bool.eq_false_iff.1 hready.2)).symm
  | poll =>
      change self.poll.drained = self.drained
      have hkept : self.drained = self.task.drainFrames self.decoder.results := if_pos hready
      rw [hkept]
      by_cases hclosing : self.task.closing = true
      · rw [poll_closing hclosing, drainFrames_closing hclosing]
        exact drained_of_rest rfl
      have hopen : self.task.closing = false := Bool.eq_false_iff.2 hclosing
      have hagain {input : Input} {decoder : FrameDecoder} (hpoll : self.poll = { self with decoder }.apply input) :
          self.poll.drained = (self.task.apply input).drainFrames decoder.results := by
        have hdraining : self.poll.draining = true := by rw [hpoll, apply_draining]; exact hready
        rw [drained, if_pos hdraining, hpoll, apply_task, apply_decoder]
      cases hnext : self.decoder.nextFrame with
      | mk result decoder =>
          rcases result with e | _ | frame
          · have hclosed := hfollows.malformed e.respond
            rw [hagain (poll_error hopen hnext), FrameDecoder.results_error hnext, Task.drainFrames_error hopen,
              drainFrames_closing hclosed, drainFrames_closing hclosed]
          · rw [poll_none hopen hnext, FrameDecoder.results_none hnext]
            exact drained_of_rest rfl
          · rw [hagain (poll_some hopen hnext), FrameDecoder.results_some hnext, Task.drainFrames_frame hopen]

def Sound (start : Engine) (permit : Bool) (socket : Socket) : Prop :=
  (∃ inputs, Task.Follows start permit inputs socket.task) ∧ socket.task.Settled

theorem Sound.apply (h : Sound start permit self) (input : Input) : Sound start permit (self.apply input) := by
  obtain ⟨⟨inputs, hfollows⟩, -⟩ := h
  obtain ⟨more, hfollows', hsettled, -⟩ := hfollows.apply input
  rw [← apply_task] at hfollows' hsettled
  exact ⟨⟨_, hfollows'⟩, hsettled⟩

theorem Sound.next (h : Sound start permit self) {self' : Socket} (hnext : self.Next self') :
    Sound start permit self' := by
  obtain ⟨round, hready, rfl⟩ := hnext
  cases round with
  | readEnded => exact h.apply .transportClosed
  | message content => exact h.apply (.localSend content)
  | command command => exact h.apply _
  | due =>
      obtain ⟨⟨inputs, hfollows⟩, hsettled⟩ := h
      obtain ⟨more, hfollows', hsettled', -⟩ := (hfollows.heeds hsettled).fireDue
      rw [← fireDue_task] at hfollows' hsettled'
      exact ⟨⟨_, hfollows'⟩, hsettled'⟩
  | read chunk => exact h
  | poll =>
      by_cases hclosing : self.task.closing = true
      · rw [round, poll_closing hclosing]
        exact h
      have hopen : self.task.closing = false := Bool.eq_false_iff.2 hclosing
      cases hnext : self.decoder.nextFrame with
      | mk result decoder =>
          have hmoved : Sound start permit { self with decoder } := h
          rcases result with e | _ | frame
          · rw [round, poll_error hopen hnext]
            exact hmoved.apply _
          · rw [round, poll_none hopen hnext]
            exact h
          · rw [round, poll_some hopen hnext]
            exact hmoved.apply _

/-- Round by round the task is woken by what the rounds stand for. -/
theorem Sound.wakes {rounds : List Round} (h : Sound start permit self) (htakes : self.Takes rounds) :
    (rounds.foldl round self).drained = (self.wakes rounds).foldl Task.wake self.drained := by
  induction rounds generalizing self with
  | nil => rfl
  | cons round rounds ih =>
      obtain ⟨hready, htakes⟩ := htakes
      obtain ⟨⟨inputs, hfollows⟩, -⟩ := id h
      rw [List.foldl_cons, ih (h.next ⟨round, hready, rfl⟩) htakes, round_drained hfollows hready, Socket.wakes,
        List.foldl_append]

theorem Takes.snoc {rounds : List Round} (h : self.Takes rounds) {round : Round}
    (hready : (rounds.foldl Socket.round self).Ready round) : self.Takes (rounds ++ [round]) := by
  induction rounds generalizing self with
  | nil => exact ⟨hready, trivial⟩
  | cons _ rounds ih => exact ⟨h.1, ih h.2 hready⟩

theorem exists_rounds {self' : Socket} (hrun : Relation.ReflTransGen Next self self') :
    ∃ rounds, self.Takes rounds ∧ rounds.foldl round self = self' := by
  induction hrun with
  | refl => exact ⟨[], trivial, rfl⟩
  | tail _ hnext ih =>
      obtain ⟨rounds, htakes, rfl⟩ := ih
      obtain ⟨round, hready, rfl⟩ := hnext
      exact ⟨rounds ++ [round], htakes.snoc hready, by rw [List.foldl_append]; rfl⟩

theorem sound_new (role : HelloRole) (identity : IdentityKeypair) (entropy : Entropy) (limit : Nat) (permit : Bool)
    (world : World) (tears : Nat → Nat) :
    let start := Engine.configured role identity entropy limit
    Sound start permit (Socket.new start permit world tears) :=
  ⟨⟨[], Task.new_follows role identity entropy limit permit world⟩, Task.new_settled _ permit world⟩

end Socket

/-- The loop over the socket is the loop of the task over what its decoder makes
of the bytes, and `drain_frames` always ends: also on bytes that are no frame,
which stay in the buffer. -/
theorem sockets_refine_tasks (role : HelloRole) (identity : IdentityKeypair) (entropy : Entropy)
    (limit : Nat) (permit : Bool) (world : World) (tears : Nat → Nat) {socket : Socket}
    (hrun : Relation.ReflTransGen Socket.Next
      ((Socket.new (Engine.configured role identity entropy limit) permit world tears).apply .start) socket) :
    (∃ rounds, let begun := (Socket.new (Engine.configured role identity entropy limit) permit world tears).apply .start
      begun.Takes rounds ∧ rounds.foldl Socket.round begun = socket ∧
        (socket.draining = false → socket.task =
          (Task.new (Engine.configured role identity entropy limit) permit world).run (begun.wakes rounds))) ∧
    ∃ n ≤ socket.decoder.buffered / headerSize + 2, let last := (Socket.poll^[n]) socket
      last.draining = false ∧ last.task = socket.task.drainFrames socket.decoder.results ∧
        (last.task.closing = false → last.decoder.results = [] ∧
          last.decoder.buffered < headerSize + maxFrameSize) := by
  have hbegun := (Socket.sound_new role identity entropy limit permit world tears).apply .start
  have hsound : Socket.Sound (Engine.configured role identity entropy limit) permit socket := by
    induction hrun with
    | refl => exact hbegun
    | tail _ hnext ih => exact ih.next hnext
  obtain ⟨rounds, htakes, hlast⟩ := Socket.exists_rounds hrun
  refine ⟨⟨rounds, htakes, hlast, ?_⟩, ?_⟩
  · intro hdraining
    have hwakes := hbegun.wakes htakes
    rw [hlast, Socket.drained_of_rest hdraining] at hwakes
    rw [hwakes, Socket.drained_of_rest (Socket.apply_draining ..), Socket.apply_task]
    rfl
  · obtain ⟨⟨inputs, hfollows⟩, -⟩ := hsound
    obtain ⟨n, hn, hdrained⟩ := Socket.drains hfollows
    refine ⟨n, hn.trans (Nat.succ_le_succ socket.decoder.length_results), hdrained.draining_eq, hdrained.task_eq, ?_⟩
    intro hopen
    rcases hdrained.ends with hclosing | hresults
    · cases hopen.symm.trans hclosing
    · exact ⟨hresults, FrameDecoder.buffered_lt hresults⟩

end Ruxmsg

namespace Ruxmsg

open Sample

def sampleWorld : World := { now := fun _ => 0, writes := fun _ => true, listens := fun _ => true }

/-- The responder's task, which has read six bytes that are no header. -/
def garbled : Socket :=
  ((Socket.new answerer true sampleWorld fun _ => 0).apply .start).round (.read [9, 9, 9, 9, 9, 9])

theorem sockets_refine_tasks_garbled : ∃ n ≤ 3, let last := (Socket.poll^[n]) garbled
    last.draining = false ∧ last.task = garbled.task.drainFrames garbled.decoder.results := by
  have hready : Socket.Next _ garbled := ⟨.read [9, 9, 9, 9, 9, 9], ⟨by decide +kernel, by decide +kernel⟩, rfl⟩
  obtain ⟨-, n, hn, hdraining, htask, -⟩ :=
    sockets_refine_tasks .responder rightIdentity (entropy 200) rekeyMessageLimit true _ _ (.single hready)
  exact ⟨n, hn, hdraining, htask⟩

end Ruxmsg

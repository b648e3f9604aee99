import Ruxmsg.Arrivals

namespace Ruxmsg

open Library.KeyCache

structure Lane where
  sessionId : SessionId
  chainKey : Bytes 32
  direction : DirectionId

namespace Lane

def sender (lane : Lane) : DataSender := DataSender.new lane.sessionId lane.direction lane.chainKey

def receiver (lane : Lane) : DataReceiver :=
  DataReceiver.new lane.sessionId lane.direction lane.chainKey

variable [Ciborium] [Primitives] (lane : Lane)

omit [Ciborium] in
/-- A sender of the lane that has sent `n` messages. -/
structure Sends (sender : DataSender) (n : Nat) : Prop where
  serves : sender.Serves lane.sessionId lane.chainKey lane.direction
  counter_eq : sender.counter = n

omit [Ciborium] in
/-- A receiver of the lane that has taken the first `n` messages and nothing else. -/
structure Expects (receiver : DataReceiver) (n : Nat) : Prop where
  models : ∃ cache, receiver.Models lane.sessionId lane.chainKey lane.direction cache ∧
    cache.held = ∅ ∧ cache.next = n
  window : receiver.replay.Keeps (Set.Iio n)

/-- Frames whose DATA are the messages of the lane from number `n` to number
`m`, with their contents. -/
inductive Carries : Nat → List Frame → List (List UInt8) → Nat → Prop
  | nil (n : Nat) : Carries n [] [] n
  | data {n m content frame payload frames contents}
      (bears : Bears lane.sessionId lane.chainKey lane.direction n content frame payload)
      (rest : Carries (n + 1) frames contents m) : Carries n (frame :: frames) (content :: contents) m
  | other {n m frame frames contents} (type : frame.messageType ≠ .data)
      (rest : Carries n frames contents m) : Carries n (frame :: frames) contents m

variable {lane} {sender : DataSender} {receiver : DataReceiver} {n m : Nat} {content : List UInt8}
  {frame : Frame} {frames frames' : List Frame} {contents contents' : List (List UInt8)}

omit [Ciborium] in
theorem sends_new (lane : Lane) : lane.Sends lane.sender 0 := ⟨⟨rfl, rfl, rfl⟩, rfl⟩

omit [Ciborium] in
theorem expects_new (lane : Lane) : lane.Expects lane.receiver 0 := by
  refine ⟨⟨Cache.empty, DataReceiver.models_new, rfl, rfl⟩, .inl ⟨rfl, ?_⟩⟩
  ext k
  simp

omit [Ciborium] in
theorem Expects.sessionId_eq (h : lane.Expects receiver n) : receiver.sessionId = lane.sessionId := by
  obtain ⟨cache, hm, -, -⟩ := h.models
  exact hm.sessionId_eq

theorem Expects.take {payload : DataPayload} (h : lane.Expects receiver n)
    (hb : Bears lane.sessionId lane.chainKey lane.direction n content frame payload) :
    ∃ receiver', receiver.decrypt frame = (.ok content, receiver') ∧ lane.Expects receiver' (n + 1) := by
  obtain ⟨cache, hm, hheld, hnext⟩ := h.models
  have hnew : receiver.replay.classify n = .new := h.window.classify_new fun a ha => ha
  have hready : cache.Ready chainLimits n := by
    right
    have hgap : n - cache.next = 0 := by omega
    refine ⟨hnext.le, hb.counter_ne, ?_, ?_⟩
    · rw [hgap]
      exact Nat.zero_le _
    · rw [hgap, hheld, Finset.card_empty]
      decide
  obtain ⟨receiver', hd, hm', hr⟩ := hb.decrypt hm hnew hready
  refine ⟨receiver', hd, ⟨_, hm', ?_, ?_⟩, ?_⟩
  · ext k
    rw [Cache.mem_take, Cache.mem_prepare, hheld, hnext]
    simp only [Finset.notMem_empty, false_or, iff_false]
    omega
  · exact Cache.next_prepare hnext.le
  · have hset : Set.Iio (n + 1) = insert n (Set.Iio n) := by
      ext k
      rw [Set.mem_insert_iff, Set.mem_Iio, Set.mem_Iio]
      omega
    rw [hset]
    exact h.window.accept hr

theorem refuses {payload : DataPayload} (hne : lane.sessionId ≠ receiver.sessionId)
    (hb : Bears lane.sessionId lane.chainKey lane.direction n content frame payload) :
    ∃ error, receiver.decrypt frame = (.error error, receiver) := by
  cases ha : receiver.accepts frame with
  | error error => exact ⟨error, DataReceiver.decrypt_unaccepted ha⟩
  | ok payload' =>
      obtain ⟨-, hd, hs, -⟩ := DataReceiver.accepts_eq_ok ha
      obtain rfl := Except.ok.inj (hb.decoded.symm.trans hd)
      exact absurd (hb.sessionId_eq.symm.trans hs) hne

theorem Sends.encrypt (rfc : Ciborium.Rfc8949) (correct : Primitives.Correct)
    (h : lane.Sends sender n) (he : sender.encrypt content = (.ok frame, sender.next)) :
    lane.Sends sender.next (n + 1) ∧
      ∃ payload, Bears lane.sessionId lane.chainKey lane.direction n content frame payload := by
  obtain ⟨hs, rfl⟩ := h
  exact ⟨⟨hs.next, rfl⟩, hs.bears rfc correct he⟩

theorem Carries.append_data {payload : DataPayload} (h : lane.Carries n frames contents m)
    (hb : Bears lane.sessionId lane.chainKey lane.direction m content frame payload) :
    lane.Carries n (frames ++ [frame]) (contents ++ [content]) (m + 1) := by
  induction h with
  | nil => exact .data hb (.nil _)
  | data bears rest ih => exact .data bears (ih hb)
  | other type rest ih => exact .other type (ih hb)

theorem Carries.append_others (h : lane.Carries n frames contents m)
    (hothers : ∀ f ∈ frames', f.messageType ≠ .data) :
    lane.Carries n (frames ++ frames') contents m := by
  induction h with
  | nil n =>
      induction frames' with
      | nil => exact .nil n
      | cons f frames' ih =>
          obtain ⟨hf, hrest⟩ := List.forall_mem_cons.1 hothers
          exact .other hf (ih hrest)
  | data bears rest ih => exact .data bears ih
  | other type rest ih => exact .other type ih

/-- The head of frames on a lane is its next message or no message. -/
theorem Carries.of_data (h : lane.Carries n (frame :: frames) contents m)
    (ht : frame.messageType = .data) : ∃ content payload contents', contents = content :: contents' ∧
      Bears lane.sessionId lane.chainKey lane.direction n content frame payload ∧
      lane.Carries (n + 1) frames contents' m := by
  cases h with
  | data bears rest => exact ⟨_, _, _, rfl, bears, rest⟩
  | other type rest => exact absurd ht type

theorem Carries.of_other (h : lane.Carries n (frame :: frames) contents m)
    (ht : frame.messageType ≠ .data) : lane.Carries n frames contents m := by
  cases h with
  | data bears rest => exact absurd bears.messageType ht
  | other type rest => exact rest

theorem Carries.of_nil (h : lane.Carries n [] contents m) : contents = [] ∧ m = n := by
  cases h
  exact ⟨rfl, rfl⟩

end Lane

/-- The lane on which one side of a session sends. -/
def SessionKeys.lane (keys : SessionKeys) : HelloRole → Lane
  | .initiator => ⟨keys.sessionId, keys.initiatorToResponder, .initiatorToResponder⟩
  | .responder => ⟨keys.sessionId, keys.responderToInitiator, .responderToInitiator⟩

section Awaiting

variable [Ciborium] [Primitives]

/-- Frames whose DATA are, in order, all that the sender of a lane has sent and
the receiver has not yet taken, with their contents. -/
def DataReceiver.Awaits (receiver : DataReceiver) (sender : DataSender) (frames : List Frame)
    (contents : List (List UInt8)) : Prop :=
  ∃ (lane : Lane) (n m : Nat), lane.Expects receiver n ∧ lane.Sends sender m ∧
    lane.Carries n frames contents m

variable {receiver other : DataReceiver} {sender : DataSender} {frame : Frame} {content : List UInt8}
  {frames frames' : List Frame} {contents : List (List UInt8)}

theorem Lane.awaits_new (lane : Lane) : lane.receiver.Awaits lane.sender [] [] :=
  ⟨lane, 0, 0, lane.expects_new, lane.sends_new, .nil 0⟩

theorem DataReceiver.Awaits.send (rfc : Ciborium.Rfc8949) (correct : Primitives.Correct)
    (h : receiver.Awaits sender frames contents) (he : sender.encrypt content = (.ok frame, sender.next)) :
    receiver.Awaits sender.next (frames ++ [frame]) (contents ++ [content]) := by
  obtain ⟨lane, n, m, hexpects, hsends, hcarries⟩ := h
  obtain ⟨hnext, payload, hbears⟩ := hsends.encrypt rfc correct he
  exact ⟨lane, n, m + 1, hexpects, hnext, hcarries.append_data hbears⟩

theorem DataReceiver.Awaits.append_others (h : receiver.Awaits sender frames contents)
    (hothers : ∀ f ∈ frames', f.messageType ≠ .data) :
    receiver.Awaits sender (frames ++ frames') contents := by
  obtain ⟨lane, n, m, hexpects, hsends, hcarries⟩ := h
  exact ⟨lane, n, m, hexpects, hsends, hcarries.append_others hothers⟩

theorem DataReceiver.Awaits.take (h : receiver.Awaits sender (frame :: frames) contents)
    (ht : frame.messageType = .data) : ∃ content contents' receiver', contents = content :: contents' ∧
      receiver.decrypt frame = (.ok content, receiver') ∧ receiver'.Awaits sender frames contents' ∧
      receiver'.sessionId = receiver.sessionId := by
  obtain ⟨lane, n, m, hexpects, hsends, hcarries⟩ := h
  obtain ⟨content, payload, contents', rfl, hbears, hrest⟩ := hcarries.of_data ht
  obtain ⟨receiver', hd, hexpects'⟩ := hexpects.take hbears
  exact ⟨content, contents', receiver', rfl, hd, ⟨lane, n + 1, m, hexpects', hsends, hrest⟩,
    hexpects'.sessionId_eq.trans hexpects.sessionId_eq.symm⟩

theorem DataReceiver.Awaits.refused (h : receiver.Awaits sender (frame :: frames) contents)
    (ht : frame.messageType = .data) (hne : receiver.sessionId ≠ other.sessionId) :
    ∃ error, other.decrypt frame = (.error error, other) := by
  obtain ⟨lane, n, m, hexpects, hsends, hcarries⟩ := h
  obtain ⟨content, payload, contents', rfl, hbears, -⟩ := hcarries.of_data ht
  rw [hexpects.sessionId_eq] at hne
  exact Lane.refuses hne hbears

theorem DataReceiver.Awaits.skip (h : receiver.Awaits sender (frame :: frames) contents)
    (ht : frame.messageType ≠ .data) : receiver.Awaits sender frames contents := by
  obtain ⟨lane, n, m, hexpects, hsends, hcarries⟩ := h
  exact ⟨lane, n, m, hexpects, hsends, hcarries.of_other ht⟩

theorem DataReceiver.Awaits.sessionId_eq (h : receiver.Awaits sender frames contents) :
    receiver.sessionId = sender.sessionId := by
  obtain ⟨lane, n, m, hexpects, hsends, -⟩ := h
  exact hexpects.sessionId_eq.trans hsends.serves.sessionId_eq.symm

theorem DataReceiver.Awaits.of_nil (h : receiver.Awaits sender [] contents) : contents = [] := by
  obtain ⟨lane, n, m, hexpects, hsends, hcarries⟩ := h
  exact hcarries.of_nil.1

end Awaiting

end Ruxmsg

import Ruxmsg.Receiver

namespace Ruxmsg

open Library.Machine Library.KeyCache

section Genuine

variable [Ciborium] [Primitives] {sessionId : SessionId} {chainKey : Bytes 32} {direction : DirectionId}
  {receiver : DataReceiver} {cache : Cache} {frame : Frame} {payload : DataPayload}

/-- A DATA map that its direction's keys open to a content. -/
structure Bears (sessionId : SessionId) (chainKey : Bytes 32) (direction : DirectionId) (counter : Nat)
    (content : List UInt8) (frame : Frame) (payload : DataPayload) : Prop where
  messageType : frame.messageType = .data
  decoded : decodePayload frame.payload = .ok payload
  sessionId_eq : payload.sessionId = sessionId
  directionId_eq : payload.directionId = direction
  counter_eq : payload.messageCounter = counter
  counter_ne : counter ≠ u64Max
  opened : ∃ plaintext, openPayload sessionId chainKey direction payload = .ok plaintext ∧
    plaintext.content = content

/-- What the sender of a direction encrypts, its receiver's keys open. -/
theorem DataSender.Serves.bears (rfc : Ciborium.Rfc8949) (correct : Primitives.Correct)
    {sender sender' : DataSender} (h : sender.Serves sessionId chainKey direction) {content : List UInt8}
    (he : sender.encrypt content = (.ok frame, sender')) :
    ∃ payload, Bears sessionId chainKey direction sender.counter content frame payload := by
  obtain ⟨-, payload, hseals, hpayload⟩ := DataSender.encrypt_eq_ok he
  obtain ⟨frame', hframe', htype, hdecode⟩ := hseals.encode_isOk rfc correct
  obtain rfl := Except.ok.inj (hpayload.symm.trans hframe')
  obtain ⟨p, bs, aad, hp, hb, ha, hencrypt⟩ := hseals.sealed
  obtain ⟨p', hp', hpad⟩ := padded_isOk hseals.content_le
  obtain rfl := Except.ok.inj (hp.symm.trans hp')
  obtain ⟨bs', hb', -, hplain⟩ := hpad.encode_isOk rfc
  obtain rfl := Except.ok.inj (hb.symm.trans hb')
  have hlt := hseals.counter_lt
  refine ⟨payload, htype, hdecode, hseals.sessionId_eq.trans h.sessionId_eq,
    hseals.directionId_eq.trans h.direction_eq, hseals.counter_eq, by omega, p, ?_, hpad.content_eq⟩
  rw [encryptMessage, okOr_eq_ok] at hencrypt
  have hdecrypt := correct.aeadDecrypt_encrypt _ _ _ _ _ hencrypt
  rw [h.messageKey, h.direction_eq] at hdecrypt
  rw [h.sessionId_eq, h.direction_eq] at ha
  rw [openPayload, hseals.counter_eq, ha, ok_bind, decryptMessage, hdecrypt, okOr_some, ok_bind, hplain]

variable {counter : Nat} {content : List UInt8}

theorem Bears.accepts (h : Bears sessionId chainKey direction counter content frame payload)
    (hm : receiver.Models sessionId chainKey direction cache)
    (hnew : receiver.replay.classify counter = .new) : receiver.accepts frame = .ok payload := by
  apply DataReceiver.accepts_isOk h.messageType h.decoded
  · rw [h.sessionId_eq, hm.sessionId_eq]
  · rw [h.directionId_eq, hm.direction_eq]
  · rw [h.counter_eq]
    exact hnew

/-- A new counter whose key can be had: the content comes out. -/
theorem Bears.decrypt (h : Bears sessionId chainKey direction counter content frame payload)
    (hm : receiver.Models sessionId chainKey direction cache)
    (hnew : receiver.replay.classify counter = .new) (hready : cache.Ready chainLimits counter) :
    ∃ receiver', receiver.decrypt frame = (.ok content, receiver') ∧
      receiver'.Models sessionId chainKey direction ((cache.prepare counter).take counter) ∧
      receiver.replay.accept counter = .ok receiver'.replay := by
  have ha := h.accepts hm hnew
  obtain ⟨plaintext, ho, rfl⟩ := h.opened
  obtain rfl := h.counter_eq
  exact hm.decrypt_opened ha hready ho

/-- A new counter beyond the limits: nothing moves. -/
theorem Bears.decrypt_unready (h : Bears sessionId chainKey direction counter content frame payload)
    (hm : receiver.Models sessionId chainKey direction cache)
    (hnew : receiver.replay.classify counter = .new) (hnext : cache.next ≤ counter)
    (hready : ¬ cache.Ready chainLimits counter) :
    receiver.decrypt frame = (.error .skippedKeyLimit, receiver) := by
  have ha := h.accepts hm hnew
  obtain rfl := h.counter_eq
  obtain ⟨error, hd, herror⟩ := hm.decrypt_unready ha hready
  rw [hd, herror hnext h.counter_ne]

end Genuine

section Injection

variable [Ciborium] [Primitives]

def aeadOpen (sessionId : SessionId) (chainKey : Bytes 32) (direction : DirectionId) (payload : DataPayload) :
    Result (List UInt8) := do
  let aad ← dataAad sessionId direction payload.messageCounter
  decryptMessage (messageKeyAt chainKey direction payload.messageCounter)
    (messageNonce direction payload.messageCounter) aad payload.ciphertext

/-- A frame that the AEAD of the direction authenticates. -/
def Authentic (sessionId : SessionId) (chainKey : Bytes 32) (direction : DirectionId) (frame : Frame) :
    Prop :=
  ∃ payload bs, decodePayload frame.payload = .ok payload ∧ payload.sessionId = sessionId ∧
    payload.directionId = direction ∧ aeadOpen sessionId chainKey direction payload = .ok bs

/-- What arrives at a receiver: the next frame of its sender or any other frame. -/
inductive Arrival
  | genuine (content : List UInt8)
  | injected (frame : Frame)

/-- A receiver and its sender, with the genuine frames delivered so far. -/
structure Line where
  receiver : DataReceiver
  sender : DataSender
  delivered : List Frame

def Line.new (sessionId : SessionId) (direction : DirectionId) (chainKey : Bytes 32) : Line :=
  { receiver := DataReceiver.new sessionId direction chainKey
    sender := DataSender.new sessionId direction chainKey
    delivered := [] }

def Line.arrive (line : Line) : Arrival → Line × Result (List UInt8)
  | .genuine content =>
      match line.sender.encrypt content with
      | (.error error, sender) => ({ line with sender }, .error error)
      | (.ok frame, sender) =>
          ({ receiver := (line.receiver.decrypt frame).2
             sender
             delivered := line.delivered ++ [frame] }, (line.receiver.decrypt frame).1)
  | .injected frame =>
      ({ line with receiver := (line.receiver.decrypt frame).2 }, (line.receiver.decrypt frame).1)

/-- An injected frame is not authenticated, or a copy of a delivered one. -/
def Line.Admits (sessionId : SessionId) (chainKey : Bytes 32) (direction : DirectionId) (line : Line) :
    Arrival → Prop
  | .genuine _ => True
  | .injected frame => ¬ Authentic sessionId chainKey direction frame ∨ frame ∈ line.delivered

variable {sessionId : SessionId} {chainKey : Bytes 32} {direction : DirectionId} {line : Line}

/-- A line whose cache holds exactly the keys from the sender's next counter on. -/
structure Line.InStep (line : Line) (sessionId : SessionId) (chainKey : Bytes 32)
    (direction : DirectionId) (cache : Cache) : Prop where
  receiver : line.receiver.Models sessionId chainKey direction cache
  sender : line.sender.Serves sessionId chainKey direction
  held : ∀ n, n ∈ cache.held ↔ line.sender.counter ≤ n ∧ n < cache.next
  next_le : line.sender.counter ≤ cache.next
  window : line.receiver.replay.Keeps (Set.Iio line.sender.counter)
  delivered : ∀ frame ∈ line.delivered, ∃ payload, decodePayload frame.payload = .ok payload ∧
    payload.messageCounter < line.sender.counter

theorem Line.inStep_new :
    (Line.new sessionId direction chainKey).InStep sessionId chainKey direction Cache.empty := by
  refine ⟨DataReceiver.models_new, ⟨rfl, rfl, rfl⟩, ?_, le_rfl, .inl ⟨rfl, ?_⟩, ?_⟩
  · intro n
    simp [Cache.empty]
  · ext n
    simp [Line.new, DataSender.new]
  · intro frame hframe
    cases hframe

theorem Authentic.of_open {frame : Frame} {payload : DataPayload} {plaintext : DataPlaintext}
    (hd : decodePayload frame.payload = .ok payload) (hs : payload.sessionId = sessionId)
    (hr : payload.directionId = direction)
    (ho : openPayload sessionId chainKey direction payload = .ok plaintext) :
    Authentic sessionId chainKey direction frame := by
  simp only [openPayload, bind_eq_ok] at ho
  obtain ⟨aad, ha, bs, hb, -⟩ := ho
  refine ⟨payload, bs, hd, hs, hr, ?_⟩
  rw [aeadOpen, ha, ok_bind, hb]

theorem Authentic.unsealed {frame : Frame} {payload : DataPayload}
    (h : Authentic sessionId chainKey direction frame) (hd : decodePayload frame.payload = .ok payload) :
    ∃ bs, aeadOpen sessionId chainKey direction payload = .ok bs := by
  obtain ⟨payload', bs, hd', -, -, hb⟩ := h
  obtain rfl := Except.ok.inj (hd.symm.trans hd')
  exact ⟨bs, hb⟩

/-- The sender's next counter is always ready: either an injected frame has had
its key derived, or the cache is empty and the counter is the next. -/
theorem Line.InStep.ready {cache : Cache} (h : line.InStep sessionId chainKey direction cache)
    (hlast : line.sender.counter ≠ u64Max) : cache.Ready chainLimits line.sender.counter := by
  by_cases hlt : line.sender.counter < cache.next
  · left
    exact (h.held _).2 ⟨le_rfl, hlt⟩
  · right
    have hnext : cache.next = line.sender.counter := le_antisymm (Nat.le_of_not_lt hlt) h.next_le
    have hempty : cache.held = ∅ := by
      ext n
      rw [h.held, hnext]
      simp
    have hgap : line.sender.counter - cache.next = 0 := by omega
    refine ⟨hnext.le, hlast, ?_, ?_⟩
    · rw [hgap]
      exact Nat.zero_le _
    · rw [hgap, hempty, Finset.card_empty]
      decide

theorem Line.InStep.genuine (rfc : Ciborium.Rfc8949) (correct : Primitives.Correct) {cache : Cache}
    (h : line.InStep sessionId chainKey direction cache) {content : List UInt8}
    (hc : content.length ≤ maxContent) (hn : line.sender.counter + 1 ≤ u64Max) :
    (line.arrive (.genuine content)).2 = .ok content ∧
      ∃ cache', (line.arrive (.genuine content)).1.InStep sessionId chainKey direction cache' := by
  obtain ⟨frame, -, he, -⟩ := DataSender.encrypt_isOk rfc correct hc hn
  obtain ⟨payload, hbears⟩ := h.sender.bears rfc correct he
  have hnew : line.receiver.replay.classify line.sender.counter = .new :=
    h.window.classify_new fun a ha => ha
  have hready := h.ready hbears.counter_ne
  obtain ⟨receiver', hd, hm, hr⟩ := hbears.decrypt h.receiver hnew hready
  have harrive : line.arrive (.genuine content) =
      ({ receiver := receiver', sender := line.sender.next, delivered := line.delivered ++ [frame] },
        .ok content) := by
    rw [Line.arrive, he]
    dsimp only
    rw [hd]
  rw [harrive]
  have hcounter : line.sender.next.counter = line.sender.counter + 1 := rfl
  refine ⟨rfl, _, hm, h.sender.next, ?_, ?_, ?_, ?_⟩
  · intro n
    have hnext : ((cache.prepare line.sender.counter).take line.sender.counter).next =
        max cache.next (line.sender.counter + 1) := rfl
    rw [Cache.mem_take, Cache.mem_prepare, h.held, hnext, hcounter]
    have := h.next_le
    omega
  · exact le_max_right _ _
  · have hset : Set.Iio line.sender.next.counter = insert line.sender.counter (Set.Iio line.sender.counter) := by
      ext n
      rw [Set.mem_insert_iff, Set.mem_Iio, Set.mem_Iio, hcounter]
      omega
    rw [hset]
    exact h.window.accept hr
  · intro frame' hframe
    rcases List.mem_append.1 hframe with hframe | hframe
    · obtain ⟨payload, hpayload, hlt⟩ := h.delivered frame' hframe
      exact ⟨payload, hpayload, hlt.trans (Nat.lt_succ_self _)⟩
    · rw [List.mem_singleton.1 hframe]
      refine ⟨payload, hbears.decoded, ?_⟩
      rw [hbears.counter_eq]
      exact Nat.lt_succ_self _

/-- A sender that fails to encrypt sends nothing and stays where it is. -/
theorem Line.InStep.unsent {cache : Cache}
    (h : line.InStep sessionId chainKey direction cache) {content : List UInt8}
    (hno : ¬ (content.length ≤ maxContent ∧ line.sender.counter + 1 ≤ u64Max)) :
    (line.arrive (.genuine content)).1.InStep sessionId chainKey direction cache := by
  obtain ⟨error, he⟩ := DataSender.encrypt_limited hno
  rw [Line.arrive, he]
  exact ⟨h.receiver, h.sender, h.held, h.next_le, h.window, h.delivered⟩

/-- What is injected moves the cache forward at most, and never takes a key. -/
theorem Line.InStep.injected {cache : Cache} (h : line.InStep sessionId chainKey direction cache)
    {frame : Frame} (hf : line.Admits sessionId chainKey direction (.injected frame)) :
    ∃ cache', (line.arrive (.injected frame)).1.InStep sessionId chainKey direction cache' := by
  rw [Line.arrive]
  dsimp only
  cases ha : line.receiver.accepts frame with
  | error error =>
      rw [DataReceiver.decrypt_unaccepted ha]
      exact ⟨cache, h⟩
  | ok payload =>
      obtain ⟨-, hd, hs, hr, hnew⟩ := DataReceiver.accepts_eq_ok ha
      have hge : line.sender.counter ≤ payload.messageCounter := by
        by_contra hlt
        exact h.window.classify_old (Nat.lt_of_not_le hlt) hnew
      by_cases hready : cache.Ready chainLimits payload.messageCounter
      · cases ho : openPayload sessionId chainKey direction payload with
        | error error =>
            obtain ⟨receiver', hd, hm, hreplay⟩ := h.receiver.decrypt_unopened ha hready ho
            rw [hd]
            refine ⟨cache.prepare payload.messageCounter, hm, h.sender, ?_, ?_, ?_, h.delivered⟩
            · intro n
              have hnext : (cache.prepare payload.messageCounter).next =
                  max cache.next (payload.messageCounter + 1) := rfl
              have hle := h.next_le
              rw [Cache.mem_prepare, h.held, hnext]
              dsimp only
              omega
            · exact h.next_le.trans (le_max_left _ _)
            · rw [hreplay]
              exact h.window
        | ok plaintext =>
            -- an open frame is authentic, and the copy of a delivered one is not new
            exfalso
            rcases hf with hf | hf
            · exact hf (.of_open hd (hs.trans h.receiver.sessionId_eq)
                (hr.trans h.receiver.direction_eq) ho)
            · obtain ⟨payload', hd', hlt⟩ := h.delivered frame hf
              obtain rfl := Except.ok.inj (hd.symm.trans hd')
              exact absurd hge (Nat.not_le.2 hlt)
      · obtain ⟨error, hd, -⟩ := h.receiver.decrypt_unready ha hready
        rw [hd]
        exact ⟨cache, h⟩

theorem Line.InStep.arrive (rfc : Ciborium.Rfc8949) (correct : Primitives.Correct) {cache : Cache}
    (h : line.InStep sessionId chainKey direction cache) {arrival : Arrival}
    (hf : line.Admits sessionId chainKey direction arrival) :
    ∃ cache', (line.arrive arrival).1.InStep sessionId chainKey direction cache' := by
  cases arrival with
  | genuine content =>
      by_cases hok : content.length ≤ maxContent ∧ line.sender.counter + 1 ≤ u64Max
      · exact (h.genuine rfc correct hok.1 hok.2).2
      · exact ⟨cache, h.unsent hok⟩
  | injected frame => exact h.injected hf

/-- Whatever else arrives, unless it is authentic and new, every frame of the
sender is decrypted to its content when it arrives. -/
theorem injected_frames_cannot_suppress (rfc : Ciborium.Rfc8949) (correct : Primitives.Correct)
    {arrivals : List Arrival}
    (allowed : Allowed Line.arrive (Line.Admits sessionId chainKey direction)
      (Line.new sessionId direction chainKey) arrivals) :
    ∀ call ∈ trace Line.arrive (Line.new sessionId direction chainKey) arrivals, ∀ content,
      call.input = .genuine content → content.length ≤ maxContent → call.pre.sender.counter < u64Max →
        call.out = .ok content := by
  intro call hcall content hinput hc hn
  obtain ⟨before, arrival, after, rfl, rfl⟩ := (mem_trace Line.arrive).1 hcall
  obtain ⟨cache, h⟩ := Allowed.final_invariant Line.arrive
    (fun line => ∃ cache, line.InStep sessionId chainKey direction cache)
    (fun _ _ ⟨_, h⟩ hf => h.arrive rfc correct hf) ⟨_, Line.inStep_new⟩ allowed.left_of_append
  obtain rfl := hinput
  exact (h.genuine rfc correct hc hn).1

end Injection

section Losses

variable [Ciborium] [Primitives] {sessionId : SessionId} {chainKey : Bytes 32} {direction : DirectionId}

structure Message where
  counter : Nat
  content : List UInt8
  frame : Frame

def Message.Genuine (sessionId : SessionId) (chainKey : Bytes 32) (direction : DirectionId)
    (message : Message) : Prop :=
  ∃ contents, ∃ call ∈ sends sessionId direction chainKey contents, call.pre.counter = message.counter ∧
    call.input = message.content ∧ call.out = .ok message.frame

theorem Message.Genuine.bears (rfc : Ciborium.Rfc8949) (correct : Primitives.Correct) {message : Message}
    (h : message.Genuine sessionId chainKey direction) : ∃ payload,
      Bears sessionId chainKey direction message.counter message.content message.frame payload := by
  obtain ⟨contents, call, hcall, hcounter, hcontent, hout⟩ := h
  have hserves := sends_serves hcall
  obtain ⟨before, content, after, -, rfl⟩ := (mem_trace DataSender.send).1 hcall
  rw [← hcounter, ← hcontent]
  exact hserves.bears rfc correct (Prod.ext hout rfl)

/-- The counters go up, by no more than the gap a receiver allows. -/
def Message.Follows (a b : Message) : Prop :=
  a.counter < b.counter ∧ b.counter ≤ a.counter + 64

/-- What a receiver makes of the message with `before` others ahead of it:
the keys of the counters in between, lost for good, are still held. -/
def Message.result (before : Nat) (message : Message) : Result (List UInt8) :=
  if message.counter < before + 128 then .ok message.content else .error .skippedKeyLimit

/-- A receiver that has met `before` messages, all of counters below `bound`,
and has decrypted the first `taken` of them. -/
structure DataReceiver.Lost (receiver : DataReceiver) (sessionId : SessionId) (chainKey : Bytes 32)
    (direction : DirectionId) (cache : Cache) (taken before bound : Nat) : Prop where
  models : receiver.Models sessionId chainKey direction cache
  window : ∃ A, receiver.replay.Keeps A ∧ ∀ a ∈ A, a < cache.next
  card : cache.held.card + taken = cache.next
  next_le : cache.next ≤ bound
  all_taken : bound < before + 128 → taken = before ∧ cache.next = bound
  taken_le : taken ≤ before

variable {receiver : DataReceiver} {cache : Cache} {taken before bound : Nat}

omit [Ciborium] in
theorem DataReceiver.lost_new : (DataReceiver.new sessionId direction chainKey).Lost sessionId chainKey
    direction Cache.empty 0 0 0 :=
  ⟨DataReceiver.models_new, ⟨∅, .inl ⟨rfl, rfl⟩, fun a ha => absurd ha (Set.notMem_empty a)⟩, rfl, le_rfl,
    fun _ => ⟨rfl, rfl⟩, le_rfl⟩

theorem DataReceiver.Lost.receive (rfc : Ciborium.Rfc8949) (correct : Primitives.Correct)
    (h : receiver.Lost sessionId chainKey direction cache taken before bound) {message : Message}
    (hg : message.Genuine sessionId chainKey direction) (hlo : bound ≤ message.counter)
    (hhi : message.counter ≤ bound + 64) :
    (receiver.receive message.frame).2 = message.result before ∧
      (∀ error, message.result before = .error error → (receiver.receive message.frame).1 = receiver) ∧
      ∃ cache' taken', (receiver.receive message.frame).1.Lost sessionId chainKey direction cache' taken'
        (before + 1) (message.counter + 1) := by
  obtain ⟨payload, hbears⟩ := hg.bears rfc correct
  obtain ⟨A, hA, hbelow⟩ := h.window
  have hcard := h.card
  have hnext := h.next_le.trans hlo
  have htaken := h.taken_le
  have hgap : maxSkippedKeys = 64 := rfl
  have hcapacity : maxPreparedKeys = 128 := rfl
  have hnew : receiver.replay.classify message.counter = .new :=
    hA.classify_new fun a ha => (hbelow a ha).trans_le hnext
  rw [DataReceiver.receive, Message.result]
  dsimp only
  by_cases hfew : message.counter < before + 128
  · rw [if_pos hfew]
    obtain ⟨rfl, hbound⟩ := h.all_taken (by omega)
    have hready : cache.Ready chainLimits message.counter := by
      right
      refine ⟨hnext, hbears.counter_ne, ?_, ?_⟩
      · change _ ≤ maxSkippedKeys
        omega
      · change _ ≤ maxPreparedKeys
        omega
    obtain ⟨receiver', hd, hm, hr⟩ := hbears.decrypt h.models hnew hready
    rw [hd]
    have hheld : message.counter ∈ (cache.prepare message.counter).held :=
      Cache.mem_prepare.2 (.inr ⟨hnext, le_rfl⟩)
    have hcard' := Cache.card_take hheld
    have hnext' : ((cache.prepare message.counter).take message.counter).next = message.counter + 1 :=
      Cache.next_prepare hnext
    rw [Cache.card_prepare hnext] at hcard'
    refine ⟨rfl, ?_, _, taken + 1, hm, ⟨insert message.counter A, hA.accept hr, ?_⟩, ?_, ?_, ?_, le_rfl⟩
    · intro error he
      cases he
    · intro a ha
      rw [hnext']
      rcases Set.mem_insert_iff.1 ha with rfl | ha
      · exact Nat.lt_succ_self _
      · exact (hbelow a ha).trans_le (hnext.trans (Nat.le_succ _))
    · rw [hnext']
      omega
    · exact hnext'.le
    · intro _
      exact ⟨rfl, hnext'⟩
  · rw [if_neg hfew]
    have hready : ¬ cache.Ready chainLimits message.counter := by
      rintro (hheld | ⟨-, -, -, (hroom : _ ≤ maxPreparedKeys)⟩)
      · exact absurd (cache.held_lt _ hheld) (Nat.not_lt.2 hnext)
      · omega
    rw [hbears.decrypt_unready h.models hnew hnext hready]
    refine ⟨rfl, fun _ _ => rfl, cache, taken, h.models, ⟨A, hA, hbelow⟩, hcard,
      hnext.trans (Nat.le_succ _), ?_, ?_⟩
    · intro hlt
      omega
    · exact htaken.trans (Nat.le_succ _)

theorem DataReceiver.Lost.receives (rfc : Ciborium.Rfc8949) (correct : Primitives.Correct)
    {messages : List Message} (h : receiver.Lost sessionId chainKey direction cache taken before bound)
    (hg : ∀ message ∈ messages, message.Genuine sessionId chainKey direction)
    (hfirst : ∀ message ∈ messages.head?, bound ≤ message.counter ∧ message.counter ≤ bound + 64)
    (hchain : messages.IsChain Message.Follows) :
    (trace DataReceiver.receive receiver (messages.map Message.frame)).map Record.out =
        messages.mapIdx (fun i message => message.result (before + i)) ∧
      ∀ call ∈ trace DataReceiver.receive receiver (messages.map Message.frame), ∀ error,
        call.out = .error error → call.post = call.pre := by
  induction messages generalizing receiver cache taken before bound with
  | nil => exact ⟨rfl, fun call hcall => absurd hcall List.not_mem_nil⟩
  | cons message messages ih =>
      obtain ⟨hlo, hhi⟩ := hfirst message rfl
      obtain ⟨hout, hkept, cache', taken', h'⟩ :=
        h.receive rfc correct (hg message List.mem_cons_self) hlo hhi
      have hrest := ih h' (fun m hm => hg m (List.mem_cons_of_mem _ hm)) ?_ hchain.tail
      · obtain ⟨houts, hposts⟩ := hrest
        rw [List.map_cons, trace]
        constructor
        · rw [List.map_cons, List.mapIdx_cons, record_out, hout, houts]
          simp only [Nat.add_zero, Nat.add_assoc, Nat.add_comm 1]
        · intro call hcall error he
          rcases List.mem_cons.1 hcall with rfl | hcall
          · exact hkept error (hout.symm.trans he)
          · exact hposts call hcall error he
      · intro next hnext
        cases messages with
        | nil => cases hnext
        | cons next' messages =>
            obtain rfl := Option.some.inj hnext
            obtain ⟨hlt, hle⟩ := (List.isChain_cons_cons.1 hchain).1
            omega

/-- Messages with losses between them are decrypted as long as fewer than 128
counters have been skipped altogether, and refused from then on with the
receiver as it was: the keys of the lost ones stay in the cache, whatever the
window has left behind. -/
theorem losses_bounded_by_cache (rfc : Ciborium.Rfc8949) (correct : Primitives.Correct)
    {messages : List Message} (genuine : ∀ message ∈ messages, message.Genuine sessionId chainKey direction)
    (first : ∀ message ∈ messages.head?, message.counter ≤ 64)
    (chain : messages.IsChain Message.Follows) :
    (receives sessionId direction chainKey (messages.map Message.frame)).map Record.out =
        messages.mapIdx (fun i message =>
          if message.counter < i + 128 then .ok message.content else .error .skippedKeyLimit) ∧
      ∀ call ∈ receives sessionId direction chainKey (messages.map Message.frame), ∀ error,
        call.out = .error error → call.post = call.pre := by
  have hrun := DataReceiver.lost_new.receives rfc correct genuine
    (fun message hm => ⟨Nat.zero_le _, (first message hm).trans (Nat.le_add_left _ _)⟩) chain
  simp only [Nat.zero_add, Message.result] at hrun
  exact hrun

theorem exists_genuine (rfc : Ciborium.Rfc8949) (correct : Primitives.Correct) {content : List UInt8}
    (hc : content.length ≤ maxContent) {counter : Nat} (hn : counter < u64Max) : ∃ frame,
      Message.Genuine sessionId chainKey direction ⟨counter, content, frame⟩ := by
  have hempty : ([] : List UInt8).length ≤ maxContent := Nat.zero_le _
  have hcounter : ∀ n ≤ counter, (final DataSender.send (DataSender.new sessionId direction chainKey)
      (List.replicate n [])).counter = n := by
    intro n
    induction n with
    | zero => exact fun _ => rfl
    | succ n ih =>
        intro hle
        have hsender := ih (Nat.le_of_succ_le hle)
        have hlt : (final DataSender.send (DataSender.new sessionId direction chainKey)
            (List.replicate n [])).counter + 1 ≤ u64Max := by omega
        obtain ⟨frame, payload, he, -⟩ := DataSender.encrypt_isOk rfc correct hempty hlt
        rw [List.replicate_succ', final_append, final_cons, final_nil, DataSender.send, he, DataSender.next]
        dsimp only
        rw [hsender]
  have hsender := hcounter counter le_rfl
  have hlt : (final DataSender.send (DataSender.new sessionId direction chainKey)
      (List.replicate counter [])).counter + 1 ≤ u64Max := by omega
  obtain ⟨frame, payload, he, -⟩ := DataSender.encrypt_isOk rfc correct hc hlt
  refine ⟨frame, List.replicate counter [] ++ [content], _,
    (mem_trace DataSender.send).2 ⟨List.replicate counter [], content, [], rfl, rfl⟩, hsender, rfl, ?_⟩
  rw [record_out, DataSender.send, he]

end Losses

end Ruxmsg

namespace Ruxmsg

namespace Channel

open Sample

def sessionId : SessionId := Bytes.replicate 16 5

def chainKey : Bytes 32 := Bytes.replicate 32 1

def forgery : DataPayload :=
  { sessionId, directionId := .initiatorToResponder, messageCounter := 5, ciphertext := List.replicate 16 0 }

/-- A DATA map of the session that nobody with its keys has made. -/
def forged : Frame := ((encodePayload forgery).toOption).getD ⟨.v1, .data, []⟩

def greeting : Frame :=
  (((DataSender.new sessionId .initiatorToResponder chainKey).encrypt [104, 105]).1.toOption).getD forged

def arrivals : List Arrival :=
  [.injected forged, .genuine [104, 105], .injected greeting, .genuine [111, 107]]

theorem forged_decodes : decodePayload forged.payload = .ok forgery := by
  decide +kernel

theorem forged_not_authentic : ¬ Authentic sessionId chainKey .initiatorToResponder forged := by
  intro h
  obtain ⟨bs, hopen⟩ := h.unsealed forged_decodes
  have hclosed : (aeadOpen sessionId chainKey .initiatorToResponder forgery).isOk = false := by
    decide +kernel
  rw [hopen] at hclosed
  cases hclosed

theorem arrivals_allowed : Library.Machine.Allowed Line.arrive
    (Line.Admits sessionId chainKey .initiatorToResponder)
    (Line.new sessionId .initiatorToResponder chainKey) arrivals := by
  refine ⟨.inl forged_not_authentic, trivial, .inr ?_, trivial, trivial⟩
  decide +kernel

end Channel

open Library.Machine Sample in
/-- A forgery, a message, its copy, and the next message. -/
theorem injected_frames_cannot_suppress_sample :
    Allowed Line.arrive (Line.Admits Channel.sessionId Channel.chainKey .initiatorToResponder)
      (Line.new Channel.sessionId .initiatorToResponder Channel.chainKey) Channel.arrivals ∧
    ∀ call ∈ trace Line.arrive (Line.new Channel.sessionId .initiatorToResponder Channel.chainKey)
      Channel.arrivals, ∀ content, call.input = .genuine content → content.length ≤ maxContent →
        call.pre.sender.counter < u64Max → call.out = .ok content :=
  ⟨Channel.arrivals_allowed, injected_frames_cannot_suppress Ciborium.reference_rfc8949
    Primitives.plain_correct Channel.arrivals_allowed⟩

namespace Channel

open Sample

theorem exists_messages {a b c : Nat} (ha : a ≤ 64) (hab : a < b ∧ b ≤ a + 64) (hbc : b < c ∧ c ≤ b + 64) :
    ∃ messages : List Message, messages.map Message.counter = [a, b, c] ∧
      messages.map Message.content = [[104], [105], [33]] ∧
      (∀ message ∈ messages, message.Genuine sessionId chainKey .initiatorToResponder) ∧
      (∀ message ∈ messages.head?, message.counter ≤ 64) ∧ messages.IsChain Message.Follows := by
  have hsent : ∀ (counter : Nat) (byte : UInt8), counter ≤ 192 → ∃ frame,
      Message.Genuine sessionId chainKey .initiatorToResponder ⟨counter, [byte], frame⟩ := by
    intro counter byte hle
    have hlast : counter < u64Max := hle.trans_lt (by decide)
    have hlength : ([byte] : List UInt8).length ≤ maxContent := (by decide : 1 ≤ maxContent)
    exact exists_genuine Ciborium.reference_rfc8949 Primitives.plain_correct hlength hlast
  obtain ⟨f, hf⟩ := hsent a 104 (by omega)
  obtain ⟨g, hg⟩ := hsent b 105 (by omega)
  obtain ⟨h, hh⟩ := hsent c 33 (by omega)
  refine ⟨[⟨a, [104], f⟩, ⟨b, [105], g⟩, ⟨c, [33], h⟩], rfl, rfl, ?_, ?_, ?_⟩
  · simp only [List.mem_cons, List.not_mem_nil, or_false, forall_eq_or_imp, forall_eq]
    exact ⟨hf, hg, hh⟩
  · intro message hm
    obtain rfl := Option.some.inj hm
    exact ha
  · exact .cons_cons hab (.cons_cons hbc (.singleton _))

end Channel

open Sample in
/-- The third of three messages is refused once 128 counters are lost before
it, though the window has long left the first 64 of them behind. -/
theorem losses_fill_the_cache : ∃ messages : List Message,
    messages.map Message.counter = [64, 128, 192] ∧
    (∀ message ∈ messages, message.Genuine Channel.sessionId Channel.chainKey .initiatorToResponder) ∧
    (receives Channel.sessionId .initiatorToResponder Channel.chainKey (messages.map Message.frame)).map
      Library.Machine.Record.out = [.ok [104], .ok [105], .error .skippedKeyLimit] := by
  obtain ⟨messages, hcounters, hcontents, hgenuine, hfirst, hchain⟩ := Channel.exists_messages
    (by decide : 64 ≤ 64) (by decide : 64 < 128 ∧ 128 ≤ 64 + 64) (by decide : 128 < 192 ∧ 192 ≤ 128 + 64)
  refine ⟨messages, hcounters, hgenuine, ?_⟩
  have hrun := DataReceiver.lost_new.receives Ciborium.reference_rfc8949 Primitives.plain_correct hgenuine
    (fun message hm => ⟨Nat.zero_le _, (hfirst message hm).trans (Nat.le_add_left _ _)⟩) hchain
  rcases messages with _ | ⟨a, _ | ⟨b, _ | ⟨c, _ | ⟨d, rest⟩⟩⟩⟩ <;> simp at hcounters hcontents
  rw [receives, hrun.1]
  simp [Message.result, hcounters, hcontents]

open Sample in
theorem losses_bounded_by_cache_sample : ∃ messages : List Message,
    messages.map Message.counter = [64, 90, 150] ∧
    (receives Channel.sessionId .initiatorToResponder Channel.chainKey (messages.map Message.frame)).map
      Library.Machine.Record.out = messages.mapIdx (fun i message =>
        if message.counter < i + 128 then .ok message.content else .error .skippedKeyLimit) ∧
    ∀ call ∈ receives Channel.sessionId .initiatorToResponder Channel.chainKey (messages.map Message.frame),
      ∀ error, call.out = .error error → call.post = call.pre := by
  obtain ⟨messages, hcounters, -, hgenuine, hfirst, hchain⟩ := Channel.exists_messages
    (by decide : 64 ≤ 64) (by decide : 64 < 90 ∧ 90 ≤ 64 + 64) (by decide : 90 < 150 ∧ 150 ≤ 90 + 64)
  exact ⟨messages, hcounters, losses_bounded_by_cache Ciborium.reference_rfc8949
    Primitives.plain_correct hgenuine hfirst hchain⟩

end Ruxmsg

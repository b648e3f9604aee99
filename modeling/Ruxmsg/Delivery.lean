import Ruxmsg.Messages
import Ruxmsg.Library.Machine
import Ruxmsg.Reference

namespace Ruxmsg

open Library.Machine

variable [Primitives]

section KeySchedule

/-- The chain key of a direction after some number of messages. -/
def chainKeyAt (chainKey : Bytes 32) (direction : DirectionId) (n : Nat) : Bytes 32 :=
  (fun key => (deriveMessageKey key direction).2)^[n] chainKey

def messageKeyAt (chainKey : Bytes 32) (direction : DirectionId) (n : Nat) : Bytes 32 :=
  (deriveMessageKey (chainKeyAt chainKey direction n) direction).1

variable {chainKey : Bytes 32} {direction : DirectionId}

theorem chainKeyAt_succ (n : Nat) : chainKeyAt chainKey direction (n + 1) =
    (deriveMessageKey (chainKeyAt chainKey direction n) direction).2 :=
  Function.iterate_succ_apply' _ _ _

/-- A receiving chain that has walked down the key schedule: it holds keys of
counters it has passed, and only those. -/
structure ReceivingChain.Walks (chain : ReceivingChain) (chainKey : Bytes 32)
    (direction : DirectionId) : Prop where
  direction_eq : chain.direction = direction
  chainKey_eq : chain.chainKey = chainKeyAt chainKey direction chain.nextCounter
  passed : ∀ n key, chain.skipped.lookup n = some key →
    n < chain.nextCounter ∧ key = messageKeyAt chainKey direction n

omit [Primitives] in
/-- The counters that have no key and never get one again. -/
def ReceivingChain.Spent (chain : ReceivingChain) (n : Nat) : Prop :=
  n < chain.nextCounter ∧ chain.skipped.lookup n = none

theorem ReceivingChain.walks_new : (ReceivingChain.new chainKey direction).Walks chainKey direction :=
  ⟨rfl, rfl, fun n key h => by simp [ReceivingChain.new] at h⟩

variable {chain : ReceivingChain}

theorem ReceivingChain.Walks.advance (h : chain.Walks chainKey direction) :
    chain.advance.1 = messageKeyAt chainKey direction chain.nextCounter ∧
      chain.advance.2.Walks chainKey direction ∧
      chain.advance.2.nextCounter = chain.nextCounter + 1 ∧
      chain.advance.2.skipped.lookup chain.nextCounter = some chain.advance.1 ∧
      ∀ n, chain.Spent n → chain.advance.2.Spent n := by
  obtain ⟨hd, hk, hp⟩ := h
  have hkey : chain.advance.1 = messageKeyAt chainKey direction chain.nextCounter := by
    rw [ReceivingChain.advance, messageKeyAt, hk, hd]
  refine ⟨hkey, ⟨hd, ?_, ?_⟩, rfl, AList.lookup_insert _, ?_⟩
  · rw [ReceivingChain.advance, hd]
    dsimp only
    rw [chainKeyAt_succ, hk]
  · intro n key hn
    by_cases heq : n = chain.nextCounter
    · subst heq
      have : chain.advance.2.skipped.lookup chain.nextCounter = some chain.advance.1 :=
        AList.lookup_insert _
      rw [this] at hn
      exact ⟨Nat.lt_succ_self _, (Option.some.inj hn).symm.trans hkey⟩
    · have : chain.advance.2.skipped.lookup n = chain.skipped.lookup n := AList.lookup_insert_ne heq
      rw [this] at hn
      exact ⟨Nat.lt_succ_of_lt (hp n key hn).1, (hp n key hn).2⟩
  · rintro n ⟨hlt, hnone⟩
    have hne : n ≠ chain.nextCounter := hlt.ne
    refine ⟨Nat.lt_succ_of_lt hlt, ?_⟩
    exact (AList.lookup_insert_ne hne).trans hnone

/-- The rounds up to a counter; the induction is on the gap. -/
theorem ReceivingChain.Walks.advanceTo (h : chain.Walks chainKey direction) (gap : Nat) :
    (chain.advanceTo gap).1 = messageKeyAt chainKey direction (chain.nextCounter + gap) ∧
      (chain.advanceTo gap).2.Walks chainKey direction ∧
      (chain.advanceTo gap).2.nextCounter = chain.nextCounter + gap + 1 ∧
      (chain.advanceTo gap).2.skipped.lookup (chain.nextCounter + gap) = some (chain.advanceTo gap).1 ∧
      ∀ n, chain.Spent n → (chain.advanceTo gap).2.Spent n := by
  induction gap generalizing chain with
  | zero => exact h.advance
  | succ gap ih =>
      obtain ⟨-, hw, hn, -, hs⟩ := h.advance
      obtain ⟨h1, h2, h3, h4, h5⟩ := ih hw
      have he : chain.nextCounter + 1 + gap = chain.nextCounter + (gap + 1) := by omega
      rw [hn, he] at h1 h3 h4
      refine ⟨h1, h2, h3, h4, fun n hspent => h5 n (hs n hspent)⟩

/-- Preparing a key walks on, and what it returns is the key of the counter. -/
theorem ReceivingChain.Walks.prepareMessageKey (h : chain.Walks chainKey direction) (counter : Nat) :
    (chain.prepareMessageKey counter).2.Walks chainKey direction ∧
      (∀ n, chain.Spent n → (chain.prepareMessageKey counter).2.Spent n) ∧
      ∀ key, (chain.prepareMessageKey counter).1 = .ok key →
        key = messageKeyAt chainKey direction counter ∧ ¬ chain.Spent counter ∧
          counter < (chain.prepareMessageKey counter).2.nextCounter := by
  have hstay : ∀ error : Error, (chain.Walks chainKey direction ∧ (∀ n, chain.Spent n → chain.Spent n) ∧
      ∀ key, (.error error : Result (Bytes 32)) = .ok key →
        key = messageKeyAt chainKey direction counter ∧ ¬ chain.Spent counter ∧
          counter < chain.nextCounter) := by
    intro error
    exact ⟨h, fun _ hs => hs, fun _ he => by cases he⟩
  rw [ReceivingChain.prepareMessageKey]
  cases hl : chain.skipped.lookup counter with
  | some key =>
      obtain ⟨hlt, hkey⟩ := h.passed counter key hl
      refine ⟨h, fun _ hs => hs, ?_⟩
      intro key' heq
      obtain rfl := Except.ok.inj heq
      refine ⟨hkey, ?_, hlt⟩
      rintro ⟨-, hnone⟩
      rw [hl] at hnone
      cases hnone
  | none =>
      dsimp only
      by_cases h1 : counter < chain.nextCounter
      · rw [if_pos h1]
        exact hstay _
      by_cases h2 : counter = u64Max
      · rw [if_neg h1, if_pos h2]
        exact hstay _
      by_cases h3 : maxSkippedKeys < counter - chain.nextCounter
      · rw [if_neg h1, if_neg h2, if_pos h3]
        exact hstay _
      by_cases h4 : maxPreparedKeys < chain.skippedLen + (counter - chain.nextCounter) + 1
      · rw [if_neg h1, if_neg h2, if_neg h3, if_pos h4]
        exact hstay _
      rw [if_neg h1, if_neg h2, if_neg h3, if_neg h4]
      obtain ⟨hkey, hw, hn, -, hs⟩ := h.advanceTo (counter - chain.nextCounter)
      rw [Nat.add_sub_cancel' (Nat.le_of_not_lt h1)] at hkey hn
      refine ⟨hw, hs, ?_⟩
      intro key heq
      obtain rfl := Except.ok.inj heq
      refine ⟨hkey, fun hspent => h1 hspent.1, ?_⟩
      rw [hn]
      exact Nat.lt_succ_self counter

theorem ReceivingChain.Walks.commitMessageKey (h : chain.Walks chainKey direction) {counter : Nat}
    {chain' : ReceivingChain} (hlt : counter < chain.nextCounter)
    (hc : chain.commitMessageKey counter = .ok chain') :
    chain'.Walks chainKey direction ∧ chain'.Spent counter ∧ ∀ n, chain.Spent n → chain'.Spent n := by
  rw [ReceivingChain.commitMessageKey] at hc
  split at hc
  next =>
      obtain rfl := Except.ok.inj hc
      refine ⟨⟨h.direction_eq, h.chainKey_eq, ?_⟩, ⟨hlt, AList.lookup_erase _ _⟩, ?_⟩
      · intro n key hn
        by_cases heq : n = counter
        · subst heq
          dsimp only at hn
          rw [AList.lookup_erase] at hn
          cases hn
        · dsimp only at hn
          rw [AList.lookup_erase_ne heq] at hn
          exact h.passed n key hn
      · rintro n ⟨hn, hnone⟩
        refine ⟨hn, ?_⟩
        by_cases heq : n = counter
        · subst heq
          exact AList.lookup_erase _ _
        · exact (AList.lookup_erase_ne heq).trans hnone
  next => cases hc

end KeySchedule

section Receiving

variable [Ciborium] {sessionId : SessionId} {chainKey : Bytes 32} {direction : DirectionId}

omit [Ciborium] in
structure DataReceiver.Serves (receiver : DataReceiver) (sessionId : SessionId) (chainKey : Bytes 32)
    (direction : DirectionId) : Prop where
  sessionId_eq : receiver.sessionId = sessionId
  direction_eq : receiver.direction = direction
  walks : receiver.chain.Walks chainKey direction

/-- What a successful `decrypt` of a frame has checked. -/
structure Opens (sessionId : SessionId) (chainKey : Bytes 32) (direction : DirectionId) (frame : Frame)
    (payload : DataPayload) (content : List UInt8) : Prop where
  decoded : decodePayload frame.payload = .ok payload
  sessionId_eq : payload.sessionId = sessionId
  directionId_eq : payload.directionId = direction
  opened : ∃ aad bs plaintext, dataAad sessionId direction payload.messageCounter = .ok aad ∧
    decryptMessage (messageKeyAt chainKey direction payload.messageCounter)
      (messageNonce direction payload.messageCounter) aad payload.ciphertext = .ok bs ∧
    DataPlaintext.decode bs = .ok plaintext ∧ content = plaintext.content

omit [Ciborium] in
theorem DataReceiver.serves_new :
    (DataReceiver.new sessionId direction chainKey).Serves sessionId chainKey direction :=
  ⟨rfl, rfl, ReceivingChain.walks_new⟩

omit [Primitives] in
theorem DataReceiver.accepts_eq_ok {receiver : DataReceiver} {frame : Frame} {payload : DataPayload}
    (h : receiver.accepts frame = .ok payload) : frame.messageType = .data ∧
      decodePayload frame.payload = .ok payload ∧ payload.sessionId = receiver.sessionId ∧
      payload.directionId = receiver.direction ∧
      receiver.replay.classify payload.messageCounter = .new := by
  simp only [accepts, bind_eq_ok, ensure_eq_ok, pure_eq_ok] at h
  obtain ⟨_, ht, _, hd, _, hs, _, hr, _, hc, rfl⟩ := h
  exact ⟨ht, hd, hs, hr, hc⟩

variable {receiver : DataReceiver}

/-- One call of `decrypt`: the chain walks on, no spent counter comes back, and
a content only comes out at the expense of its counter. -/
theorem DataReceiver.Serves.decrypt (h : receiver.Serves sessionId chainKey direction) (frame : Frame) :
    (receiver.decrypt frame).2.Serves sessionId chainKey direction ∧
      (∀ n, receiver.chain.Spent n → (receiver.decrypt frame).2.chain.Spent n) ∧
      ∀ content, (receiver.decrypt frame).1 = .ok content → ∃ payload,
        Opens sessionId chainKey direction frame payload content ∧
        ¬ receiver.chain.Spent payload.messageCounter ∧
        (receiver.decrypt frame).2.chain.Spent payload.messageCounter := by
  have herr : ∀ (error : Error) (content : List UInt8), (.error error : Result (List UInt8)) ≠ .ok content := by
    intro error content heq
    cases heq
  obtain ⟨hs, hd, hw⟩ := h
  rw [DataReceiver.decrypt]
  cases hacc : receiver.accepts frame with
  | error error => exact ⟨⟨hs, hd, hw⟩, fun _ h => h, fun content heq => absurd heq (herr _ _)⟩
  | ok payload =>
      obtain ⟨-, hdec, hsid, hdir, hclass⟩ := accepts_eq_ok hacc
      obtain ⟨hw', hspent, hkey⟩ := hw.prepareMessageKey payload.messageCounter
      dsimp only
      generalize receiver.chain.prepareMessageKey payload.messageCounter = prepared at hw' hspent hkey ⊢
      obtain ⟨result, chain⟩ := prepared
      cases result with
      | error error => exact ⟨⟨hs, hd, hw'⟩, hspent, fun content heq => absurd heq (herr _ _)⟩
      | ok key =>
          obtain ⟨rfl, hfresh, hlt⟩ := hkey key rfl
          dsimp only at hw' hspent hlt ⊢
          split
          next => exact ⟨⟨hs, hd, hw'⟩, hspent, fun content heq => absurd heq (herr _ _)⟩
          next decoded hopen =>
              simp only [bind_eq_ok] at hopen
              obtain ⟨aad, ha, bs, hb, hp⟩ := hopen
              rw [hs, hdir, hd] at ha
              rw [hdir, hd] at hb
              split
              next => exact ⟨⟨hs, hd, hw'⟩, hspent, fun content heq => absurd heq (herr _ _)⟩
              next chain' hcommit =>
                  obtain ⟨hw'', hnow, hkeep⟩ := hw'.commitMessageKey hlt hcommit
                  split
                  next =>
                      exact ⟨⟨hs, hd, hw''⟩, fun n hn => hkeep n (hspent n hn),
                        fun content heq => absurd heq (herr _ _)⟩
                  next =>
                      refine ⟨⟨hs, hd, hw''⟩, fun n hn => hkeep n (hspent n hn), ?_⟩
                      intro content heq
                      obtain rfl := Except.ok.inj heq
                      exact ⟨payload, ⟨hdec, hsid.trans hs, hdir.trans hd, aad, bs, decoded, ha, hb, hp, rfl⟩,
                        hfresh, hnow⟩

def DataSender.send (sender : DataSender) (content : List UInt8) : DataSender × Result Frame :=
  ((sender.encrypt content).2, (sender.encrypt content).1)

def DataReceiver.receive (receiver : DataReceiver) (frame : Frame) :
    DataReceiver × Result (List UInt8) :=
  ((receiver.decrypt frame).2, (receiver.decrypt frame).1)

def sends (sessionId : SessionId) (direction : DirectionId) (chainKey : Bytes 32)
    (contents : List (List UInt8)) : List (Record DataSender (List UInt8) (Result Frame)) :=
  trace DataSender.send (DataSender.new sessionId direction chainKey) contents

def receives (sessionId : SessionId) (direction : DirectionId) (chainKey : Bytes 32)
    (frames : List Frame) : List (Record DataReceiver Frame (Result (List UInt8))) :=
  trace DataReceiver.receive (DataReceiver.new sessionId direction chainKey) frames

/-- Some call has made this ciphertext of this content at this counter. -/
def Sent (calls : List (Record DataSender (List UInt8) (Result Frame))) (counter : Nat)
    (content ciphertext : List UInt8) : Prop :=
  ∃ call ∈ calls, call.pre.counter = counter ∧ call.input = content ∧ ∃ frame payload,
    call.out = .ok frame ∧ encodePayload payload = .ok frame ∧ call.pre.Seals content payload ∧
    payload.ciphertext = ciphertext

omit [Primitives] in
/-- The counters of the frames that `decrypt` accepted. -/
def accepted (calls : List (Record DataReceiver Frame (Result (List UInt8)))) : List Nat :=
  calls.filterMap fun call =>
    match call.out, decodePayload call.input.payload with
    | .ok _, .ok payload => some payload.messageCounter
    | _, _ => none

/-- An ideal AEAD for one direction of a session: what it opens under the key
of a counter is a ciphertext its sender made at that counter, and opening what
was sealed gives nothing but the sealed message. -/
structure IdealAead (sessionId : SessionId) (direction : DirectionId) (chainKey : Bytes 32)
    (contents : List (List UInt8)) : Prop where
  unforgeable : ∀ n aad ciphertext bs, dataAad sessionId direction n = .ok aad →
    decryptMessage (messageKeyAt chainKey direction n) (messageNonce direction n) aad ciphertext = .ok bs →
      ∃ content, Sent (sends sessionId direction chainKey contents) n content ciphertext
  inverts : ∀ key nonce aad message ciphertext message',
    Primitives.aeadEncrypt key nonce aad message = some ciphertext →
      Primitives.aeadDecrypt key nonce aad ciphertext = some message' → message' = message

omit [Ciborium] in
structure DataSender.Serves (sender : DataSender) (sessionId : SessionId) (chainKey : Bytes 32)
    (direction : DirectionId) : Prop where
  sessionId_eq : sender.sessionId = sessionId
  direction_eq : sender.direction = direction
  chainKey_eq : sender.chainKey = chainKeyAt chainKey direction sender.counter

omit [Ciborium] in
theorem DataSender.Serves.next {sender : DataSender} (h : sender.Serves sessionId chainKey direction) :
    sender.next.Serves sessionId chainKey direction := by
  refine ⟨h.sessionId_eq, h.direction_eq, ?_⟩
  rw [DataSender.next]
  dsimp only
  rw [chainKeyAt_succ, h.chainKey_eq, h.direction_eq]

omit [Ciborium] in
theorem DataSender.Serves.messageKey {sender : DataSender}
    (h : sender.Serves sessionId chainKey direction) :
    sender.messageKey = messageKeyAt chainKey direction sender.counter := by
  rw [DataSender.messageKey, messageKeyAt, h.chainKey_eq, h.direction_eq]

theorem sends_serves {contents : List (List UInt8)}
    {call : Record DataSender (List UInt8) (Result Frame)}
    (h : call ∈ sends sessionId direction chainKey contents) :
    call.pre.Serves sessionId chainKey direction := by
  obtain ⟨before, content, after, -, rfl⟩ := (mem_trace DataSender.send).1 h
  refine final_invariant DataSender.send (fun s => s.Serves sessionId chainKey direction) ?_
    ⟨rfl, rfl, rfl⟩ before
  intro sender content hs
  obtain h | h := sender.encrypt_snd content
  · rw [DataSender.send, h]
    exact hs
  · rw [DataSender.send, h]
    exact hs.next

theorem sends_counter (contents : List (List UInt8)) :
    (∀ call ∈ sends sessionId direction chainKey contents, (∃ frame, call.out = .ok frame) →
      call.pre.counter <
        (final DataSender.send (DataSender.new sessionId direction chainKey) contents).counter) ∧
    ∀ call ∈ sends sessionId direction chainKey contents,
      ∀ call' ∈ sends sessionId direction chainKey contents, (∃ frame, call.out = .ok frame) →
        (∃ frame, call'.out = .ok frame) → call.pre.counter = call'.pre.counter → call = call' := by
  refine trace_induction DataSender.send (fun calls sender =>
    (∀ call ∈ calls, (∃ frame, call.out = .ok frame) → call.pre.counter < sender.counter) ∧
      ∀ call ∈ calls, ∀ call' ∈ calls, (∃ frame, call.out = .ok frame) →
        (∃ frame, call'.out = .ok frame) → call.pre.counter = call'.pre.counter → call = call')
    _ (by simp) ?_ contents
  rintro calls sender content ⟨hlt, hinj⟩
  have hmono : sender.counter ≤ (sender.send content).1.counter := by
    obtain h | h := sender.encrypt_snd content
    · rw [DataSender.send, h]
    · rw [DataSender.send, h]
      exact Nat.le_succ _
  constructor
  · intro call hcall hok
    obtain hcall | hcall := List.mem_append.1 hcall
    · exact (hlt call hcall hok).trans_le hmono
    · rw [List.mem_singleton.1 hcall] at hok ⊢
      obtain ⟨frame, hframe⟩ := hok
      obtain ⟨hnext, -⟩ := DataSender.encrypt_eq_ok (Prod.ext hframe rfl)
      have hlast : (sender.send content).1 = sender.next := hnext
      rw [record_pre, hlast]
      exact Nat.lt_succ_self _
  · intro call hcall call' hcall' hok hok' heq
    obtain hcall | hcall := List.mem_append.1 hcall
    · obtain hcall' | hcall' := List.mem_append.1 hcall'
      · exact hinj call hcall call' hcall' hok hok' heq
      · have := hlt call hcall hok
        rw [heq, List.mem_singleton.1 hcall'] at this
        exact absurd this (lt_irrefl _)
    · obtain hcall' | hcall' := List.mem_append.1 hcall'
      · have := hlt call' hcall' hok'
        rw [← heq, List.mem_singleton.1 hcall] at this
        exact absurd this (lt_irrefl _)
      · rw [List.mem_singleton.1 hcall, List.mem_singleton.1 hcall']

theorem Sent.unique {contents : List (List UInt8)} {n : Nat}
    {content content' ciphertext ciphertext' : List UInt8}
    (h : Sent (sends sessionId direction chainKey contents) n content ciphertext)
    (h' : Sent (sends sessionId direction chainKey contents) n content' ciphertext') :
    content = content' := by
  obtain ⟨call, hcall, hcounter, rfl, frame, -, hout, -⟩ := h
  obtain ⟨call', hcall', hcounter', rfl, frame', -, hout', -⟩ := h'
  have hsame := (sends_counter contents).2 call hcall call' hcall' ⟨frame, hout⟩ ⟨frame', hout'⟩
    (hcounter.trans hcounter'.symm)
  rw [hsame]

/-- What the ideal AEAD opens is what its sender has put in at that counter. -/
theorem Opens.sent (rfc : Ciborium.Rfc8949) {contents : List (List UInt8)}
    (ideal : IdealAead sessionId direction chainKey contents) {frame : Frame} {payload : DataPayload}
    {content : List UInt8} (h : Opens sessionId chainKey direction frame payload content) :
    Sent (sends sessionId direction chainKey contents) payload.messageCounter content
      payload.ciphertext := by
  obtain ⟨aad, bs, plaintext, ha, hb, hp, rfl⟩ := h.opened
  obtain ⟨content, hsent⟩ := ideal.unforgeable _ _ _ _ ha hb
  have hsent' := hsent
  obtain ⟨call, hcall, hcounter, -, -, sealed, -, -, hseals, hct⟩ := hsent
  have hserves := sends_serves hcall
  obtain ⟨p, bs', aad', hpad, henc, haad, hencrypt⟩ := hseals.sealed
  rw [hserves.messageKey, hserves.direction_eq, hcounter, hct] at hencrypt
  rw [hserves.sessionId_eq, hserves.direction_eq, hcounter] at haad
  obtain rfl := Except.ok.inj (ha.symm.trans haad)
  rw [decryptMessage, okOr_eq_ok] at hb
  rw [encryptMessage, okOr_eq_ok] at hencrypt
  obtain rfl := ideal.inverts _ _ _ _ _ _ hencrypt hb
  obtain ⟨p', hpad', hok⟩ := padded_isOk hseals.content_le
  obtain rfl := Except.ok.inj (hpad.symm.trans hpad')
  obtain ⟨bs', henc', -, hdecode⟩ := hok.encode_isOk rfc
  obtain rfl := Except.ok.inj (henc.symm.trans henc')
  obtain rfl := Except.ok.inj (hp.symm.trans hdecode)
  rw [hok.content_eq]
  exact hsent'

/-- The counters accepted so far are spent, and no two are the same. -/
theorem receives_spent (frames : List Frame) :
    (final DataReceiver.receive (DataReceiver.new sessionId direction chainKey) frames).Serves
        sessionId chainKey direction ∧
      (∀ n ∈ accepted (receives sessionId direction chainKey frames),
        (final DataReceiver.receive (DataReceiver.new sessionId direction chainKey) frames).chain.Spent n) ∧
      (accepted (receives sessionId direction chainKey frames)).Nodup := by
  refine trace_induction DataReceiver.receive (fun calls receiver =>
    receiver.Serves sessionId chainKey direction ∧ (∀ n ∈ accepted calls, receiver.chain.Spent n) ∧
      (accepted calls).Nodup) _ ⟨DataReceiver.serves_new, by simp [accepted], by simp [accepted]⟩ ?_ frames
  rintro calls receiver frame ⟨hserves, hspent, hnodup⟩
  obtain ⟨hserves', hkeep, hnew⟩ := hserves.decrypt frame
  refine ⟨hserves', ?_⟩
  have happend : accepted (calls ++ [record DataReceiver.receive receiver frame]) = accepted calls ++
      accepted [record DataReceiver.receive receiver frame] := List.filterMap_append
  rw [happend]
  cases hout : (receiver.decrypt frame).1 with
  | error error =>
      have hnil : accepted [record DataReceiver.receive receiver frame] = [] := by
        simp [accepted, DataReceiver.receive, hout]
      rw [hnil, List.append_nil]
      exact ⟨fun n hn => hkeep n (hspent n hn), hnodup⟩
  | ok content =>
      obtain ⟨payload, hopens, hfresh, hnow⟩ := hnew content hout
      have hone : accepted [record DataReceiver.receive receiver frame] = [payload.messageCounter] := by
        simp [accepted, DataReceiver.receive, hout, hopens.decoded]
      rw [hone]
      constructor
      · intro n hn
        obtain hn | hn := List.mem_append.1 hn
        · exact hkeep n (hspent n hn)
        · rw [List.mem_singleton.1 hn]
          exact hnow
      · rw [List.nodup_append]
        refine ⟨hnodup, List.nodup_singleton _, ?_⟩
        intro n hn m hm hnm
        rw [hnm, List.mem_singleton.1 hm] at hn
        exact hfresh (hspent _ hn)

/-- With an ideal AEAD a receiver only delivers what the matching sender sent
at the counter of the frame, and delivers for no counter twice. -/
theorem decrypt_authentic_once (rfc : Ciborium.Rfc8949) {contents : List (List UInt8)}
    (ideal : IdealAead sessionId direction chainKey contents) (frames : List Frame) :
    (∀ call ∈ receives sessionId direction chainKey frames, ∀ content, call.out = .ok content →
      ∃ payload, decodePayload call.input.payload = .ok payload ∧
        Sent (sends sessionId direction chainKey contents) payload.messageCounter content
          payload.ciphertext ∧
        ∀ content' ciphertext', Sent (sends sessionId direction chainKey contents)
          payload.messageCounter content' ciphertext' → content' = content) ∧
    (accepted (receives sessionId direction chainKey frames)).Nodup := by
  refine ⟨?_, (receives_spent frames).2.2⟩
  intro call hcall content hout
  obtain ⟨before, frame, after, -, rfl⟩ := (mem_trace DataReceiver.receive).1 hcall
  obtain ⟨-, -, hnew⟩ := (receives_spent before).1.decrypt frame
  obtain ⟨payload, hopens, -⟩ := hnew content hout
  have hsent := hopens.sent rfc ideal
  exact ⟨payload, hopens.decoded, hsent, fun content' _ h => h.unique hsent⟩

end Receiving

end Ruxmsg

namespace Ruxmsg

namespace OneMessage

open Library.Machine

scoped instance : Ciborium := Ciborium.reference

def sessionId : SessionId := Bytes.replicate 16 5

def chainKey : Bytes 32 := Bytes.replicate 32 1

def content : List UInt8 := [104, 105]

@[irreducible] def plaintext : List UInt8 :=
  match (DataPlaintext.padded content).bind DataPlaintext.encode with
  | .ok bs => bs
  | .error _ => []

/-- Primitives under which one message has been sealed and nothing else opens. -/
scoped instance : Primitives :=
  { Primitives.plain with
    hkdfExpand := fun _ ikm info length =>
      if h : ikm.length = length ∧ info.length = 24 then ⟨ikm, h.1⟩ else Bytes.replicate length 0
    aeadEncrypt := fun _ _ _ message => some (message ++ List.replicate 16 0)
    aeadDecrypt := fun key _ _ ciphertext =>
      if key = chainKey ∧ ciphertext = plaintext ++ List.replicate 16 0 then some plaintext else none }

theorem deriveMessageKey_eq (key : Bytes 32) :
    deriveMessageKey key .initiatorToResponder = (key, Bytes.replicate 32 0) := by
  have hkey : key.val.length = 32 ∧
      (ascii "RUXMSG/1/message-key" ++ Library.Cbor.beBytes 4 DirectionId.initiatorToResponder.toNat).length =
        24 := ⟨key.property, by decide⟩
  have hchain : ¬ (key.val.length = 32 ∧
      (ascii "RUXMSG/1/chain-key" ++ Library.Cbor.beBytes 4 DirectionId.initiatorToResponder.toNat).length =
        24) := fun h => absurd h.2 (by decide)
  rw [deriveMessageKey]
  exact Prod.ext (dif_pos hkey) (dif_neg hchain)

theorem messageKeyAt_eq_chainKey {n : Nat}
    (h : messageKeyAt chainKey .initiatorToResponder n = chainKey) : n = 0 := by
  cases n with
  | zero => rfl
  | succ n =>
      rw [messageKeyAt, chainKeyAt_succ, deriveMessageKey_eq, deriveMessageKey_eq] at h
      have hne : (Bytes.replicate 32 0 : Bytes 32) ≠ chainKey := by decide
      exact absurd h hne

theorem aeadDecrypt_eq (key : Bytes 32) (nonce : Bytes 12) (aad ciphertext : List UInt8) :
    Primitives.aeadDecrypt key nonce aad ciphertext =
      if key = chainKey ∧ ciphertext = plaintext ++ List.replicate 16 0 then some plaintext else none :=
  rfl

theorem encryptMessage_eq (key : Bytes 32) (nonce : Bytes 12) (aad message : List UInt8) :
    encryptMessage key nonce aad message = .ok (message ++ List.replicate 16 0) :=
  rfl

def sender : DataSender := DataSender.new sessionId .initiatorToResponder chainKey

theorem plaintext_eq : (DataPlaintext.padded content).bind DataPlaintext.encode = .ok plaintext := by
  decide +kernel

theorem sender_isOk : ∃ frame, (sender.encrypt content).1 = .ok frame := by
  have h : (sender.encrypt content).1.isOk = true := by decide +kernel
  cases hresult : (sender.encrypt content).1 with
  | ok frame => exact ⟨frame, rfl⟩
  | error => cases hresult ▸ h

theorem decryptMessage_eq_ok {key : Bytes 32} {nonce : Bytes 12} {aad ciphertext bs : List UInt8}
    (h : decryptMessage key nonce aad ciphertext = .ok bs) :
    key = chainKey ∧ ciphertext = plaintext ++ List.replicate 16 0 := by
  rw [decryptMessage, aeadDecrypt_eq] at h
  split at h
  next hopen => exact hopen
  next => cases h

theorem sent_ciphertext : Sent (sends sessionId .initiatorToResponder chainKey [content]) 0 content
    (plaintext ++ List.replicate 16 0) := by
  obtain ⟨frame, hframe⟩ := sender_isOk
  have hsend : sender.encrypt content = (.ok frame, (sender.encrypt content).2) := by
    rw [← hframe]
  obtain ⟨-, payload, hseals, hpayload⟩ := DataSender.encrypt_eq_ok hsend
  have hmem : record DataSender.send sender content ∈
      sends sessionId .initiatorToResponder chainKey [content] := by
    rw [sends, trace, trace, sender]
    exact List.mem_cons_self
  have hout : (record DataSender.send sender content).out = .ok frame := by
    rw [record_out, DataSender.send, hframe]
  have hsealed : payload.ciphertext = plaintext ++ List.replicate 16 0 := by
    obtain ⟨p, bs, _, hp, hb, -, he⟩ := hseals.sealed
    have hplain := plaintext_eq
    rw [hp] at hplain
    obtain rfl : bs = plaintext := Except.ok.inj (hb.symm.trans hplain)
    rw [encryptMessage_eq] at he
    exact (Except.ok.inj he).symm
  have hpre : (record DataSender.send sender content).pre = sender := rfl
  rw [← hpre] at hseals
  exact ⟨record DataSender.send sender content, hmem, rfl, rfl, frame, payload, hout, hpayload, hseals,
    hsealed⟩

theorem idealAead : IdealAead sessionId .initiatorToResponder chainKey [content] := by
  refine ⟨?_, ?_⟩
  · intro n aad ciphertext bs _ hd
    obtain ⟨hkey, rfl⟩ := decryptMessage_eq_ok hd
    obtain rfl := messageKeyAt_eq_chainKey hkey
    exact ⟨content, sent_ciphertext⟩
  · intro key nonce aad message ciphertext message' he hd
    obtain rfl := Option.some.inj he
    rw [aeadDecrypt_eq] at hd
    split at hd
    next hopen =>
        rw [← Option.some.inj hd]
        exact (List.append_cancel_right hopen.2).symm
    next => cases hd

def replayed (frame : Frame) : List (Record DataReceiver Frame (Result (List UInt8))) :=
  receives sessionId .initiatorToResponder chainKey [frame, ⟨.v1, .data, []⟩, frame]

end OneMessage

open Library.Machine OneMessage in
/-- The message is delivered, the other frame is not, and the message is not
delivered again. -/
theorem decrypt_authentic_once_sample : ∃ frame payload, (sender.encrypt content).1 = .ok frame ∧
    decodePayload frame.payload = .ok payload ∧
    Sent (sends OneMessage.sessionId .initiatorToResponder OneMessage.chainKey [content]) payload.messageCounter
      content payload.ciphertext ∧
    ((replayed frame).map fun call => call.out.toOption) = [some content, none, none] ∧
    (accepted (replayed frame)).Nodup := by
  have hall : ((sender.encrypt content).1.toOption.all fun frame =>
      ((replayed frame).map fun call => call.out.toOption) = [some content, none, none]) = true := by
    decide +kernel
  obtain ⟨frame, hframe⟩ := sender_isOk
  rw [hframe] at hall
  have houts : ((replayed frame).map fun call => call.out.toOption) = [some content, none, none] :=
    of_decide_eq_true hall
  obtain ⟨hsent, honce⟩ :=
    decrypt_authentic_once Ciborium.reference_rfc8949 idealAead [frame, ⟨.v1, .data, []⟩, frame]
  rw [replayed, receives, trace, List.map_cons] at houts
  have hout := Sample.eq_ok_of_toOption (List.cons.inj houts).1
  obtain ⟨payload, hdecoded, hpayload, -⟩ := hsent _ List.mem_cons_self content hout
  exact ⟨frame, payload, hframe, hdecoded, hpayload, of_decide_eq_true hall, honce⟩

end Ruxmsg

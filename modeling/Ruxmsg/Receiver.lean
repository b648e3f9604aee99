import Ruxmsg.Chain
import Ruxmsg.Window

namespace Ruxmsg

open Library.Machine Library.KeyCache

variable [Ciborium] [Primitives] {sessionId : SessionId} {chainKey : Bytes 32} {direction : DirectionId}
  {receiver : DataReceiver} {cache : Cache} {frame : Frame} {payload : DataPayload}

def openPayload (sessionId : SessionId) (chainKey : Bytes 32) (direction : DirectionId)
    (payload : DataPayload) : Result DataPlaintext := do
  let aad ← dataAad sessionId direction payload.messageCounter
  let plaintext ← decryptMessage (messageKeyAt chainKey direction payload.messageCounter)
    (messageNonce direction payload.messageCounter) aad payload.ciphertext
  DataPlaintext.decode plaintext

omit [Ciborium] in
structure DataReceiver.Models (receiver : DataReceiver) (sessionId : SessionId) (chainKey : Bytes 32)
    (direction : DirectionId) (cache : Cache) : Prop where
  sessionId_eq : receiver.sessionId = sessionId
  direction_eq : receiver.direction = direction
  chain : receiver.chain.Models chainKey direction cache

omit [Ciborium] in
theorem DataReceiver.models_new :
    (DataReceiver.new sessionId direction chainKey).Models sessionId chainKey direction Cache.empty :=
  ⟨rfl, rfl, ReceivingChain.models_new⟩

omit [Primitives] in
theorem DataReceiver.accepts_isOk (ht : frame.messageType = .data)
    (hd : decodePayload frame.payload = .ok payload) (hs : payload.sessionId = receiver.sessionId)
    (hr : payload.directionId = receiver.direction)
    (hc : receiver.replay.classify payload.messageCounter = .new) :
    receiver.accepts frame = .ok payload := by
  rw [accepts, ensure_of ht, ok_bind, hd, ok_bind, ensure_of hs, ok_bind, ensure_of hr, ok_bind,
    ensure_of hc]
  rfl

omit [Primitives] in
/-- What a receiver accepts depends on its session, its direction and its window. -/
theorem DataReceiver.accepts_congr {receiver' : DataReceiver}
    (hs : receiver'.sessionId = receiver.sessionId) (hd : receiver'.direction = receiver.direction)
    (hr : receiver'.replay = receiver.replay) (frame : Frame) :
    receiver'.accepts frame = receiver.accepts frame := by
  rw [accepts, accepts, hs, hd, hr]

theorem DataReceiver.decrypt_unaccepted {error : Error} (h : receiver.accepts frame = .error error) :
    receiver.decrypt frame = (.error error, receiver) := by
  rw [decrypt, h]

theorem DataReceiver.Models.decrypt_unready (h : receiver.Models sessionId chainKey direction cache)
    (ha : receiver.accepts frame = .ok payload)
    (hready : ¬ cache.Ready chainLimits payload.messageCounter) : ∃ error,
      receiver.decrypt frame = (.error error, receiver) ∧
        (cache.next ≤ payload.messageCounter → payload.messageCounter ≠ u64Max →
          error = .skippedKeyLimit) := by
  obtain ⟨error, hp, herror⟩ := h.chain.prepare_refused hready
  refine ⟨error, ?_, herror⟩
  rw [DataReceiver.decrypt, ha]
  dsimp only
  rw [hp]

/-- The key is there but the frame does not open: the chain has walked on. -/
theorem DataReceiver.Models.decrypt_unopened (h : receiver.Models sessionId chainKey direction cache)
    (ha : receiver.accepts frame = .ok payload) (hready : cache.Ready chainLimits payload.messageCounter)
    {error : Error} (ho : openPayload sessionId chainKey direction payload = .error error) :
    ∃ receiver', receiver.decrypt frame = (.error error, receiver') ∧
      receiver'.Models sessionId chainKey direction (cache.prepare payload.messageCounter) ∧
      receiver'.replay = receiver.replay := by
  obtain ⟨chain', hp, hm⟩ := h.chain.prepare_ready hready
  obtain ⟨-, -, -, hdir, -⟩ := DataReceiver.accepts_eq_ok ha
  refine ⟨{ receiver with chain := chain' }, ?_, ⟨h.sessionId_eq, h.direction_eq, hm⟩, rfl⟩
  rw [openPayload] at ho
  rw [DataReceiver.decrypt, ha]
  dsimp only
  rw [hp]
  dsimp only
  rw [h.sessionId_eq, hdir, h.direction_eq, ho]

/-- The frame opens: its key is taken and its counter recorded. -/
theorem DataReceiver.Models.decrypt_opened (h : receiver.Models sessionId chainKey direction cache)
    (ha : receiver.accepts frame = .ok payload) (hready : cache.Ready chainLimits payload.messageCounter)
    {plaintext : DataPlaintext} (ho : openPayload sessionId chainKey direction payload = .ok plaintext) :
    ∃ receiver', receiver.decrypt frame = (.ok plaintext.content, receiver') ∧
      receiver'.Models sessionId chainKey direction
        ((cache.prepare payload.messageCounter).take payload.messageCounter) ∧
      receiver.replay.accept payload.messageCounter = .ok receiver'.replay := by
  obtain ⟨chain', hp, hm⟩ := h.chain.prepare_ready hready
  obtain ⟨-, -, -, hdir, hnew⟩ := DataReceiver.accepts_eq_ok ha
  have hheld : payload.messageCounter ∈ (cache.prepare payload.messageCounter).held := by
    rcases hready with hheld | ⟨hnext, -⟩
    · exact Cache.mem_prepare.2 (.inl hheld)
    · exact Cache.mem_prepare.2 (.inr ⟨hnext, le_rfl⟩)
  obtain ⟨chain'', hc, hm'⟩ := hm.commit hheld
  obtain ⟨replay', hreplay⟩ := ReplayWindow.accept_isOk.2 hnew
  refine ⟨{ receiver with chain := chain'', replay := replay' }, ?_,
    ⟨h.sessionId_eq, h.direction_eq, hm'⟩, hreplay⟩
  rw [openPayload] at ho
  rw [DataReceiver.decrypt, ha]
  dsimp only
  rw [hp]
  dsimp only
  rw [h.sessionId_eq, hdir, h.direction_eq, ho]
  dsimp only
  rw [hc]
  dsimp only
  rw [hreplay]

/-- The content of a frame comes out exactly when the frame is accepted, its
key can be had and it opens. -/
theorem DataReceiver.Models.decrypt_eq_ok (h : receiver.Models sessionId chainKey direction cache)
    {content : List UInt8} : (receiver.decrypt frame).1 = .ok content ↔
      ∃ payload plaintext, receiver.accepts frame = .ok payload ∧
        cache.Ready chainLimits payload.messageCounter ∧
        openPayload sessionId chainKey direction payload = .ok plaintext ∧ plaintext.content = content := by
  constructor
  · intro hok
    cases ha : receiver.accepts frame with
    | error error =>
        rw [DataReceiver.decrypt_unaccepted ha] at hok
        cases hok
    | ok payload =>
        by_cases hready : cache.Ready chainLimits payload.messageCounter
        · cases ho : openPayload sessionId chainKey direction payload with
          | error error =>
              obtain ⟨receiver', hd, -⟩ := h.decrypt_unopened ha hready ho
              rw [hd] at hok
              cases hok
          | ok plaintext =>
              obtain ⟨receiver', hd, -⟩ := h.decrypt_opened ha hready ho
              rw [hd] at hok
              exact ⟨payload, plaintext, rfl, hready, ho, Except.ok.inj hok⟩
        · obtain ⟨error, hd, -⟩ := h.decrypt_unready ha hready
          rw [hd] at hok
          cases hok
  · rintro ⟨payload, plaintext, ha, hready, ho, rfl⟩
    obtain ⟨receiver', hd, -⟩ := h.decrypt_opened ha hready ho
    rw [hd]

/-- A failed call has at most derived keys early. -/
theorem DataReceiver.Models.decrypt_failed (h : receiver.Models sessionId chainKey direction cache)
    {error : Error} (he : (receiver.decrypt frame).1 = .error error) :
    (receiver.decrypt frame).2 = receiver ∨ ∃ n,
      (receiver.decrypt frame).2.Models sessionId chainKey direction (cache.prepare n) ∧
        (receiver.decrypt frame).2.replay = receiver.replay := by
  cases ha : receiver.accepts frame with
  | error error =>
      left
      rw [DataReceiver.decrypt_unaccepted ha]
  | ok payload =>
      by_cases hready : cache.Ready chainLimits payload.messageCounter
      · cases ho : openPayload sessionId chainKey direction payload with
        | error error =>
            obtain ⟨receiver', hd, hm, hr⟩ := h.decrypt_unopened ha hready ho
            right
            rw [hd]
            exact ⟨_, hm, hr⟩
        | ok plaintext =>
            obtain ⟨receiver', hd, -⟩ := h.decrypt_opened ha hready ho
            rw [hd] at he
            cases he
      · obtain ⟨error, hd, -⟩ := h.decrypt_unready ha hready
        left
        rw [hd]

theorem DataReceiver.Models.receive (h : receiver.Models sessionId chainKey direction cache)
    (frame : Frame) : ∃ cache', (receiver.receive frame).1.Models sessionId chainKey direction cache' := by
  rw [DataReceiver.receive]
  dsimp only
  cases hd : (receiver.decrypt frame).1 with
  | error error =>
      rcases h.decrypt_failed hd with hsame | ⟨n, hm, -⟩
      · rw [hsame]
        exact ⟨cache, h⟩
      · exact ⟨_, hm⟩
  | ok content =>
      obtain ⟨payload, plaintext, ha, hready, ho, -⟩ := h.decrypt_eq_ok.1 hd
      obtain ⟨receiver', hd', hm, -⟩ := h.decrypt_opened ha hready ho
      rw [hd']
      exact ⟨_, hm⟩

theorem DataReceiver.models_final (frames : List Frame) : ∃ cache,
    (final DataReceiver.receive (DataReceiver.new sessionId direction chainKey) frames).Models
      sessionId chainKey direction cache :=
  final_invariant DataReceiver.receive
    (fun receiver => ∃ cache, receiver.Models sessionId chainKey direction cache)
    (fun _ frame ⟨_, h⟩ => h.receive frame) ⟨_, DataReceiver.models_new⟩ frames

theorem DataReceiver.Models.rejects (h : receiver.Models sessionId chainKey direction cache)
    (hd : decodePayload frame.payload = .ok payload)
    (hother : payload.sessionId ≠ sessionId ∨ payload.directionId ≠ direction ∨
      receiver.replay.classify payload.messageCounter ≠ .new) :
    ∃ error, receiver.decrypt frame = (.error error, receiver) := by
  cases ha : receiver.accepts frame with
  | error error => exact ⟨error, DataReceiver.decrypt_unaccepted ha⟩
  | ok payload' =>
      obtain ⟨-, hd', hs, hr, hnew⟩ := DataReceiver.accepts_eq_ok ha
      obtain rfl := Except.ok.inj (hd.symm.trans hd')
      rcases hother with hne | hne | hne
      · exact absurd (hs.trans h.sessionId_eq) hne
      · exact absurd (hr.trans h.direction_eq) hne
      · exact absurd hnew hne

/-- In every state a receiver can reach, a failed call keeps the window, every
cached key and every frame that could have been decrypted before it. -/
theorem failed_decrypt_keeps (sessionId : SessionId) (chainKey : Bytes 32) (direction : DirectionId)
    (frames : List Frame) (frame : Frame) :
    let receiver := final DataReceiver.receive (DataReceiver.new sessionId direction chainKey) frames
    let after := (receiver.decrypt frame).2
    (∀ error, (receiver.decrypt frame).1 = .error error → after.replay = receiver.replay ∧
      (∀ n key, receiver.chain.skipped.lookup n = some key → after.chain.skipped.lookup n = some key) ∧
      ∀ genuine content, (receiver.decrypt genuine).1 = .ok content →
        (after.decrypt genuine).1 = .ok content) ∧
    ∀ payload, decodePayload frame.payload = .ok payload →
      payload.sessionId ≠ sessionId ∨ payload.directionId ≠ direction ∨
        receiver.replay.classify payload.messageCounter ≠ .new →
      ∃ error, receiver.decrypt frame = (.error error, receiver) := by
  intro receiver after
  obtain ⟨cache, h⟩ : ∃ cache, receiver.Models sessionId chainKey direction cache :=
    DataReceiver.models_final frames
  constructor
  · intro error he
    rcases h.decrypt_failed he with (hsame : after = receiver) |
      ⟨n, (hm : after.Models sessionId chainKey direction (cache.prepare n)),
        (hreplay : after.replay = receiver.replay)⟩
    · rw [hsame]
      exact ⟨rfl, fun _ _ hk => hk, fun _ _ hok => hok⟩
    · refine ⟨hreplay, ?_, ?_⟩
      · intro m key hk
        have hheld : m ∈ cache.held := (h.chain.held_iff m).1 (Option.isSome_iff_exists.2 ⟨key, hk⟩)
        rw [h.chain.lookup hheld] at hk
        rw [hm.chain.lookup (Cache.mem_prepare.2 (.inl hheld)), hk]
      · intro genuine content hok
        obtain ⟨payload, plaintext, ha, hready, ho, hcontent⟩ := h.decrypt_eq_ok.1 hok
        rw [← DataReceiver.accepts_congr (hm.sessionId_eq.trans h.sessionId_eq.symm)
          (hm.direction_eq.trans h.direction_eq.symm) hreplay] at ha
        exact hm.decrypt_eq_ok.2 ⟨payload, plaintext, ha, hready.prepare n, ho, hcontent⟩
  · intro payload hd hother
    exact h.rejects hd hother

end Ruxmsg

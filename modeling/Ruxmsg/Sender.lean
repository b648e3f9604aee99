import Ruxmsg.Delivery

namespace Ruxmsg

open Library.Cbor Library.Machine

theorem DirectionId.toNat_lt (direction : DirectionId) : direction.toNat < 256 := by
  cases direction <;> decide

theorem DirectionId.toNat_injective {direction direction' : DirectionId}
    (h : direction.toNat = direction'.toNat) : direction = direction' := by
  cases direction <;> cases direction' <;> first | rfl | cases h

theorem uint_injective {m n : Nat} (hm : m < 2 ^ 64) (hn : n < 2 ^ 64) (h : uint m = uint n) :
    m = n := by
  rw [uint_eq hm, uint_eq hn, Value.integer.injEq] at h
  exact Int.ofNat_inj.1 h

theorem beBytes_injective {k m n : Nat} (hm : m < 256 ^ k) (hn : n < 256 ^ k)
    (h : beBytes k m = beBytes k n) : m = n := by
  rw [← ofBytes_beBytes k m hm, h, ofBytes_beBytes k n hn]

theorem messageNonce_injective {direction direction' : DirectionId} {m n : Nat}
    (hm : m < 2 ^ 64) (hn : n < 2 ^ 64) (h : messageNonce direction m = messageNonce direction' n) :
    direction = direction' ∧ m = n := by
  have hval := congrArg Subtype.val h
  have hlen : (beBytes 4 direction.toNat).length = (beBytes 4 direction'.toNat).length := by
    rw [length_beBytes, length_beBytes]
  obtain ⟨hdirection, hcounter⟩ := List.append_inj hval hlen
  have hd := direction.toNat_lt
  have hd' := direction'.toNat_lt
  exact ⟨DirectionId.toNat_injective (beBytes_injective (by omega) (by omega) hdirection),
    beBytes_injective (by omega) (by omega) hcounter⟩

def aadValue (sessionId : SessionId) (direction : DirectionId) (counter : Nat) : Value :=
  .map [(uint 0, uint 1), (uint 1, .bytes sessionId.val), (uint 2, uint MessageType.data.toNat),
    (uint 3, uint direction.toNat), (uint 4, uint counter)]

theorem aadValue_encodable (sessionId : SessionId) (direction : DirectionId) (counter : Nat) :
    (aadValue sessionId direction counter).Encodable := by
  have hid : (Value.bytes sessionId.val).Encodable := (encodable_bytes sessionId).2 (by decide)
  refine ⟨by simp, ?_⟩
  simp [EntriesEncodable, hid]

theorem aadValue_injective {sessionId sessionId' : SessionId} {direction direction' : DirectionId}
    {m n : Nat} (hm : m < 2 ^ 64) (hn : n < 2 ^ 64)
    (h : aadValue sessionId direction m = aadValue sessionId' direction' n) :
    sessionId = sessionId' ∧ direction = direction' ∧ m = n := by
  have hd := direction.toNat_lt
  have hd' := direction'.toNat_lt
  simp only [aadValue, Value.map.injEq, List.cons.injEq, Prod.mk.injEq, Value.bytes.injEq, and_true,
    true_and] at h
  obtain ⟨hsession, hdirection, hcounter⟩ := h
  exact ⟨Subtype.ext hsession,
    DirectionId.toNat_injective (uint_injective (by omega) (by omega) hdirection),
    uint_injective hm hn hcounter⟩

section Codec

variable [Ciborium]

theorem dataAad_eq (rfc : Ciborium.Rfc8949) (sessionId : SessionId) (direction : DirectionId)
    (counter : Nat) : dataAad sessionId direction counter =
      .ok (aadValue sessionId direction counter).encode := by
  rw [dataAad, ← aadValue, rfc.writes _ (aadValue_encodable _ _ _)]
  rfl

theorem dataAad_injective (rfc : Ciborium.Rfc8949) {sessionId sessionId' : SessionId}
    {direction direction' : DirectionId} {m n : Nat} (hm : m < 2 ^ 64) (hn : n < 2 ^ 64)
    (h : dataAad sessionId direction m = dataAad sessionId' direction' n) :
    sessionId = sessionId' ∧ direction = direction' ∧ m = n := by
  rw [dataAad_eq rfc, dataAad_eq rfc, Except.ok.injEq] at h
  exact aadValue_injective hm hn
    (encode_injective (aadValue_encodable _ _ _) (aadValue_encodable _ _ _) h)

variable [Primitives]

/-- A failing call leaves the sender as it was: the one step after the ratchet
has moved cannot fail. -/
theorem DataSender.encrypt_atomic (rfc : Ciborium.Rfc8949) (hprim : Primitives.Correct)
    (sender : DataSender) (content : List UInt8) {error : Error}
    (h : (sender.encrypt content).1 = .error error) : (sender.encrypt content).2 = sender := by
  by_cases hlimits : content.length ≤ maxContent ∧ sender.counter + 1 ≤ u64Max
  · obtain ⟨hc, hn⟩ := hlimits
    obtain ⟨frame, payload, hok, -⟩ := DataSender.encrypt_isOk rfc hprim hc hn
    rw [hok] at h
    cases h
  · obtain ⟨error', hfail⟩ := DataSender.encrypt_limited hlimits
    rw [hfail]

def sealedFrames (calls : List (Record DataSender (List UInt8) (Result Frame))) : List Frame :=
  calls.filterMap fun call => call.out.toOption

/-- A frame of a session sealed under the key, the nonce and the authenticated
data of one counter. -/
structure SealedAt (sessionId : SessionId) (direction : DirectionId) (chainKey : Bytes 32)
    (counter : Nat) (frame : Frame) : Prop where
  isData : frame.messageType = .data
  counter_lt : counter < u64Max
  sealed : ∃ payload aad plaintext, decodePayload frame.payload = .ok payload ∧
    payload.sessionId = sessionId ∧ payload.directionId = direction ∧
    payload.messageCounter = counter ∧ dataAad sessionId direction counter = .ok aad ∧
    encryptMessage (messageKeyAt chainKey direction counter) (messageNonce direction counter) aad
      plaintext = .ok payload.ciphertext

variable {sessionId : SessionId} {direction : DirectionId} {chainKey : Bytes 32}

theorem DataSender.Serves.sealedAt (rfc : Ciborium.Rfc8949) (hprim : Primitives.Correct)
    {sender sender' : DataSender} (hs : sender.Serves sessionId chainKey direction)
    {content : List UInt8} {frame : Frame} (h : sender.encrypt content = (.ok frame, sender')) :
    SealedAt sessionId direction chainKey sender.counter frame := by
  obtain ⟨-, payload, hseals, hencode⟩ := DataSender.encrypt_eq_ok h
  obtain ⟨frame', hencode', htype, hdecode⟩ := hseals.encode_isOk rfc hprim
  obtain rfl := Except.ok.inj (hencode.symm.trans hencode')
  obtain ⟨p, bs, aad, -, -, haad, hencrypt⟩ := hseals.sealed
  have hlt := hseals.counter_lt
  rw [hs.messageKey] at hencrypt
  rw [hs.sessionId_eq, hs.direction_eq] at haad
  rw [hs.direction_eq] at hencrypt
  exact ⟨htype, hlt, payload, aad, bs, hdecode, hseals.sessionId_eq.trans hs.sessionId_eq,
    hseals.directionId_eq.trans hs.direction_eq, hseals.counter_eq, haad, hencrypt⟩

/-- The frames of a run: as many as the counter says, each under its own
number. The induction is on the calls. -/
theorem sealedFrames_sends (rfc : Ciborium.Rfc8949) (hprim : Primitives.Correct)
    (contents : List (List UInt8)) :
    ∀ n frame, (sealedFrames (sends sessionId direction chainKey contents))[n]? = some frame →
      SealedAt sessionId direction chainKey n frame := by
  refine (trace_induction DataSender.send (fun calls sender =>
    sender.Serves sessionId chainKey direction ∧ sender.counter = (sealedFrames calls).length ∧
      ∀ n frame, (sealedFrames calls)[n]? = some frame →
        SealedAt sessionId direction chainKey n frame)
    (DataSender.new sessionId direction chainKey) ⟨⟨rfl, rfl, rfl⟩, rfl, by simp [sealedFrames]⟩ ?_
    contents).2.2
  rintro calls sender content ⟨hs, hcounter, hsealed⟩
  have happend : sealedFrames (calls ++ [record DataSender.send sender content]) =
      sealedFrames calls ++ ((sender.encrypt content).1.toOption).toList := by
    rw [sealedFrames, List.filterMap_append, ← sealedFrames]
    cases hout : (sender.encrypt content).1 <;>
      simp [DataSender.send, hout, Except.toOption]
  rw [happend]
  cases hout : (sender.encrypt content).1 with
  | error error =>
      have hsame : (sender.send content).1 = sender := sender.encrypt_atomic rfc hprim content hout
      rw [hsame]
      simpa [Except.toOption] using ⟨hs, hcounter, hsealed⟩
  | ok frame =>
      have hencrypt : sender.encrypt content = (.ok frame, (sender.encrypt content).2) :=
        Prod.ext hout rfl
      have hnext : (sender.send content).1 = sender.next := (DataSender.encrypt_eq_ok hencrypt).1
      rw [hnext]
      refine ⟨hs.next, by simp [DataSender.next, hcounter, Except.toOption], ?_⟩
      intro n frame' hn
      by_cases hlast : n < (sealedFrames calls).length
      · rw [List.getElem?_append_left hlast] at hn
        exact hsealed n frame' hn
      · rw [List.getElem?_append_right (by omega)] at hn
        obtain ⟨hlt, hframe⟩ := List.getElem?_eq_some_iff.1 hn
        simp only [Except.toOption, Option.toList_some, List.length_singleton] at hlt
        have hnumber : n = sender.counter := by omega
        simp only [Except.toOption, Option.toList_some, List.getElem_singleton] at hframe
        rw [hnumber, ← hframe]
        exact hs.sealedAt rfc hprim hencrypt

/-- A run of a sender: its frames are numbered without gap or repeat, each is
sealed under the key, nonce and authenticated data of its number, and a call
that fails changes nothing. -/
theorem sender_never_reuses (rfc : Ciborium.Rfc8949) (hprim : Primitives.Correct)
    (sessionId : SessionId) (direction : DirectionId) (chainKey : Bytes 32)
    (contents : List (List UInt8)) :
    (∀ n frame, (sealedFrames (sends sessionId direction chainKey contents))[n]? = some frame →
      SealedAt sessionId direction chainKey n frame) ∧
    (∀ m n, m < (sealedFrames (sends sessionId direction chainKey contents)).length →
      n < (sealedFrames (sends sessionId direction chainKey contents)).length → m ≠ n →
        messageNonce direction m ≠ messageNonce direction n ∧
          dataAad sessionId direction m ≠ dataAad sessionId direction n) ∧
    (∀ frame ∈ sealedFrames (sends sessionId direction chainKey contents), ∀ payload,
      decodePayload frame.payload = .ok payload → payload.messageCounter ≠ u64Max) ∧
    (∀ (sender : DataSender) content error, (sender.encrypt content).1 = .error error →
      (sender.encrypt content).2 = sender) ∧
    ∀ (sender : DataSender) content payload, sender.Seals content payload →
      ∃ frame, encodePayload payload = .ok frame := by
  have hsealed := @sealedFrames_sends _ _ sessionId direction chainKey rfc hprim contents
  have hbound (n : Nat) (hn : n < (sealedFrames (sends sessionId direction chainKey contents)).length) :
      n < 2 ^ 64 := by
    have hlt := (hsealed n _ (List.getElem?_eq_getElem hn)).counter_lt
    simp only [u64Max] at hlt
    omega
  refine ⟨hsealed, ?_, ?_, ?_, ?_⟩
  · intro m n hm hn hne
    constructor
    · intro h
      exact hne (messageNonce_injective (hbound m hm) (hbound n hn) h).2
    · intro h
      exact hne (dataAad_injective rfc (hbound m hm) (hbound n hn) h).2.2
  · intro frame hframe payload hpayload
    obtain ⟨n, hn⟩ := List.mem_iff_getElem?.1 hframe
    have hat := hsealed n frame hn
    obtain ⟨payload', -, -, hdecode, -, -, hcounter, -⟩ := hat.sealed
    obtain rfl := Except.ok.inj (hpayload.symm.trans hdecode)
    rw [hcounter]
    exact hat.counter_lt.ne
  · intro sender content error h
    exact sender.encrypt_atomic rfc hprim content h
  · intro sender content payload hseals
    obtain ⟨frame, hframe, -⟩ := hseals.encode_isOk rfc hprim
    exact ⟨frame, hframe⟩

end Codec

open Sample in
/-- Two messages, with one that is too long between them. -/
theorem sender_never_reuses_sample :
    (sealedFrames (sends (Bytes.replicate 16 5) .initiatorToResponder (Bytes.replicate 32 3)
      [[1, 2], List.replicate 65537 0, [3]])).length = 2 ∧
    ∀ n frame, (sealedFrames (sends (Bytes.replicate 16 5) .initiatorToResponder
      (Bytes.replicate 32 3) [[1, 2], List.replicate 65537 0, [3]]))[n]? = some frame →
        SealedAt (Bytes.replicate 16 5) .initiatorToResponder (Bytes.replicate 32 3) n frame :=
  ⟨by decide +kernel,
    (sender_never_reuses Ciborium.reference_rfc8949 Primitives.plain_correct _ _ _ _).1⟩

end Ruxmsg

import Ruxmsg.Payloads
import Ruxmsg.Data

namespace Ruxmsg

open Library.Cbor

theorem paddingSearch_of_aligned (fixed : Nat) (target : Nat)
    (ht : (fixed + bstrHeaderLen target + target + aeadTagSize) % defaultPaddingQuantum = 0)
    (fuel paddingLen : Nat) (hle : paddingLen ≤ target) (hfuel : target ≤ paddingLen + fuel) :
    ∃ n ≤ target, paddingSearch fixed fuel paddingLen = .ok n := by
  induction fuel generalizing paddingLen with
  | zero =>
      obtain rfl : paddingLen = target := by omega
      exact ⟨paddingLen, le_rfl, by rw [paddingSearch]; simp only [ht, if_true]⟩
  | succ fuel ih =>
      rw [paddingSearch]
      split_ifs with h
      · exact ⟨paddingLen, hle, rfl⟩
      · have hne : paddingLen ≠ target := by
          rintro rfl
          exact h ht
        exact ih (paddingLen + 1) (by omega) (by omega)

/-- Two bytes of header are enough to reach every residue. -/
theorem paddingSearch_isOk (fixed : Nat) : ∃ n ≤ 511, paddingSearch fixed maxFrameSize 0 = .ok n := by
  have hq : defaultPaddingQuantum = 256 := rfl
  have htag : aeadTagSize = 16 := rfl
  have hm : maxFrameSize = 1048576 := rfl
  obtain ⟨target, hlo, hhi, hmod⟩ : ∃ target, 256 ≤ target ∧ target ≤ 511 ∧
      (fixed + 3 + target + 16) % 256 = 0 :=
    ⟨511 - (fixed + 3 + 511 + 16) % 256, by omega, by omega, by omega⟩
  have hhead : bstrHeaderLen target = 3 := by
    rw [bstrHeaderLen, if_neg (by omega), if_neg (by omega), if_pos (by omega)]
  obtain ⟨n, hn, h⟩ := paddingSearch_of_aligned fixed target (by rw [hhead, hq, htag]; exact hmod)
    maxFrameSize 0 (Nat.zero_le _) (by omega)
  exact ⟨n, hn.trans hhi, h⟩

/-- What `padded` makes of a content within the limit. -/
structure Padded (content : List UInt8) (p : DataPlaintext) : Prop where
  content_eq : p.content = content
  content_le : content.length ≤ maxContent
  padding_le : p.padding.length ≤ 511
  padding_zero : ∀ byte ∈ p.padding, byte = 0

theorem padded_isOk {content : List UInt8} (h : content.length ≤ maxContent) :
    ∃ p, DataPlaintext.padded content = .ok p ∧ Padded content p := by
  obtain ⟨n, hn, hs⟩ := paddingSearch_isOk (fixedLen content)
  refine ⟨⟨content, List.replicate n 0⟩, ?_, rfl, h, by simpa using hn, ?_⟩
  · rw [DataPlaintext.padded, if_neg (by omega), hs]
    rfl
  · intro byte hb
    exact List.eq_of_mem_replicate hb

def DataPlaintext.fields (p : DataPlaintext) : List (Nat × Value) :=
  [(0, .bytes p.content), (1, .bytes p.padding)]

def DataPayload.fields (p : DataPayload) : List (Nat × Value) :=
  [(0, bytes p.sessionId.val), (1, uint p.directionId.toNat), (2, uint p.messageCounter),
    (3, .bytes p.ciphertext)]

theorem DataPlaintext.entries_eq (p : DataPlaintext) : p.entries = keyed p.fields := by
  simp [entries, fields, keyed, uint_eq]

theorem DataPayload.entries_eq (p : DataPayload) : p.entries = keyed p.fields := by
  simp [entries, fields, keyed, uint_eq, bytes]

@[simp] theorem scalar_bytesValue (b : List UInt8) : Scalar (.bytes b) := trivial

@[simp] theorem weight_bytesValue (b : List UInt8) : weight (.bytes b) = 9 + b.length := rfl

theorem DataPlaintext.fieldsOk (p : DataPlaintext) (hc : p.content.length < 2 ^ 64)
    (hp : p.padding.length < 2 ^ 64) : FieldsOk p.fields := by
  have hcontent : (Value.bytes p.content).Encodable := hc
  have hpadding : (Value.bytes p.padding).Encodable := hp
  constructor <;> simp [fields, hcontent, hpadding]

theorem DataPayload.fieldsOk (p : DataPayload) (hc : p.ciphertext.length < 2 ^ 64) :
    FieldsOk p.fields := by
  have hcipher : (Value.bytes p.ciphertext).Encodable := hc
  constructor <;> simp [fields, hcipher]

theorem DataPlaintext.length_le (p : DataPlaintext) (hc : p.content.length < 2 ^ 64)
    (hp : p.padding.length < 2 ^ 64) : (Value.map (keyed p.fields)).encode.length ≤
      p.content.length + p.padding.length + 45 := by
  refine (length_encode_keyed (p.fieldsOk hc hp).scalar).trans ?_
  simp only [fields, List.map_cons, List.map_nil, List.sum_cons, List.sum_nil, weight_bytesValue]
  omega

theorem DataPayload.length_le (p : DataPayload) (hc : p.ciphertext.length < 2 ^ 64) :
    (Value.map (keyed p.fields)).encode.length ≤ p.ciphertext.length + 97 := by
  refine (length_encode_keyed (p.fieldsOk hc).scalar).trans ?_
  simp only [fields, List.map_cons, List.map_nil, List.sum_cons, List.sum_nil, weight_bytes,
    weight_uint, weight_bytesValue]
  omega

@[simp] theorem bytesValue_bytes (b : List UInt8) : bytesValue (.bytes b) = .ok b := rfl

section Codec

variable [Ciborium]

theorem Padded.encode_isOk (rfc : Ciborium.Rfc8949) {content : List UInt8} {p : DataPlaintext}
    (h : Padded content p) : ∃ bs, p.encode = .ok bs ∧ bs.length ≤ content.length + 556 ∧
      DataPlaintext.decode bs = .ok p := by
  obtain ⟨rfl, hc, hp, hz⟩ := h
  have hmax : maxContent = 65536 := rfl
  have hframe : maxFrameSize = 1048576 := rfl
  have hok := p.fieldsOk (by omega) (by omega)
  have hl := p.length_le (by omega) (by omega)
  refine ⟨(Value.map (keyed p.fields)).encode, ?_, by omega, ?_⟩
  · rw [DataPlaintext.encode, p.entries_eq, rfc.writes _ hok.map_encodable]
    rfl
  · have hall : p.padding.all (· = 0) := by simpa using hz
    rw [DataPlaintext.decode, validateCborMapPayload_keyed rfc hok (by omega)]
    simp only [ok_bind, DataPlaintext.fields, List.length_cons, List.length_nil, plaintextFields,
      bytesValue, okOr_some, ensure_of hc, ensure_of hall]
    rfl

theorem encodePayload_isOk (rfc : Ciborium.Rfc8949) (p : DataPayload)
    (hlo : aeadTagSize ≤ p.ciphertext.length) (hhi : p.ciphertext.length + 97 ≤ maxFrameSize)
    (hcounter : p.messageCounter ≤ u64Max) : ∃ frame, encodePayload p = .ok frame ∧
      frame.messageType = .data ∧ decodePayload frame.payload = .ok p := by
  have hframe : maxFrameSize = 1048576 := rfl
  have hok := p.fieldsOk (by omega)
  have hl := p.length_le (by omega)
  have hlimit : (Value.map (keyed p.fields)).encode.length ≤ MessageType.maxPayload .data := by
    simp only [MessageType.maxPayload]
    omega
  obtain ⟨frame, hf, ht, hp, hm⟩ := encodeMap_keyed rfc .data hok hlimit
  refine ⟨frame, ?_, ht, ?_⟩
  · rw [encodePayload, p.entries_eq]
    exact hf
  · rw [Frame.validateCborMap] at hm
    rw [decodePayload, hm]
    have hdir : p.directionId.toNat ≤ u64Max := by cases p.directionId <;> decide
    have hdir' : p.directionId.toNat ≤ u32Max := by cases p.directionId <;> decide
    have hfields : dataFields {} p.fields = .ok
        ⟨some p.sessionId, some p.directionId, some p.messageCounter, some p.ciphertext⟩ := by
      simp only [DataPayload.fields, dataFields, bytes, bytesValue_bytes, ok_bind, Bytes.ofList?_val,
        okOr_some, uintValue_uint hdir, ensure_of hdir', DirectionId.tryFrom_toNat,
        uintValue_uint hcounter]
    rw [ok_bind, ensure_of (by simp [DataPayload.fields]), ok_bind, hfields]
    simp only [ok_bind, okOr_some, ensure_of hlo]
    rfl

theorem dataAad_isOk (rfc : Ciborium.Rfc8949) (sessionId : SessionId) (direction : DirectionId)
    (counter : Nat) : ∃ aad, dataAad sessionId direction counter = .ok aad := by
  have hid : (Value.bytes sessionId.val).Encodable := (encodable_bytes sessionId).2 (by decide)
  have henc : (Value.map [(uint 0, uint 1), (uint 1, .bytes sessionId.val),
      (uint 2, uint MessageType.data.toNat), (uint 3, uint direction.toNat),
      (uint 4, uint counter)]).Encodable := by
    refine ⟨by simp, ?_⟩
    simp [EntriesEncodable, hid]
  rw [dataAad, rfc.writes _ henc]
  exact ⟨_, rfl⟩

section Sealing

variable [Primitives]

omit [Ciborium] in
def DataSender.next (sender : DataSender) : DataSender :=
  { sender with
    chainKey := (deriveMessageKey sender.chainKey sender.direction).2
    counter := sender.counter + 1 }

omit [Ciborium] in
def DataSender.messageKey (sender : DataSender) : Bytes 32 :=
  (deriveMessageKey sender.chainKey sender.direction).1

/-- The DATA map a sender makes of a content under its current key. -/
structure DataSender.Seals (sender : DataSender) (content : List UInt8) (payload : DataPayload) :
    Prop where
  sessionId_eq : payload.sessionId = sender.sessionId
  directionId_eq : payload.directionId = sender.direction
  counter_eq : payload.messageCounter = sender.counter
  content_le : content.length ≤ maxContent
  counter_lt : sender.counter + 1 ≤ u64Max
  sealed : ∃ plaintext bs aad, DataPlaintext.padded content = .ok plaintext ∧
    plaintext.encode = .ok bs ∧ dataAad sender.sessionId sender.direction sender.counter = .ok aad ∧
    encryptMessage sender.messageKey (messageNonce sender.direction sender.counter) aad bs =
      .ok payload.ciphertext

theorem DataSender.encrypt_eq_ok {sender sender' : DataSender} {content : List UInt8} {frame : Frame}
    (h : sender.encrypt content = (.ok frame, sender')) :
    sender' = sender.next ∧
      ∃ payload, sender.Seals content payload ∧ encodePayload payload = .ok frame := by
  rw [encrypt] at h
  dsimp only at h
  split at h
  next => cases h
  next ciphertext nextChain hprep =>
      simp only [bind_eq_ok, ensure_eq_ok, pure_eq_ok, Prod.mk.injEq] at hprep
      obtain ⟨_, hc, _, hn, p, hp, bs, hb, aad, ha, ct, he, rfl, rfl⟩ := hprep
      obtain ⟨hf, rfl⟩ := Prod.mk.inj h
      refine ⟨rfl, _, ?_, hf⟩
      exact ⟨rfl, rfl, rfl, hc, hn, p, bs, aad, hp, hb, ha, he⟩

theorem DataSender.encrypt_type {sender sender' : DataSender} {content : List UInt8} {frame : Frame}
    (h : sender.encrypt content = (.ok frame, sender')) : frame.messageType = .data := by
  obtain ⟨-, payload, -, hp⟩ := DataSender.encrypt_eq_ok h
  have hmap : encodeMap .data payload.entries = .ok frame := hp
  exact encodeMap_type hmap

/-- A call of `encrypt` uses the current key or leaves the sender alone. -/
theorem DataSender.encrypt_snd (sender : DataSender) (content : List UInt8) :
    (sender.encrypt content).2 = sender ∨ (sender.encrypt content).2 = sender.next := by
  rw [DataSender.encrypt]
  dsimp only
  split
  next => exact .inl rfl
  next ciphertext nextChain h =>
      simp only [bind_eq_ok, pure_eq_ok, Prod.mk.injEq] at h
      obtain ⟨_, -, _, -, _, -, _, -, _, -, _, -, -, rfl⟩ := h
      exact .inr rfl

theorem DataSender.encrypt_limited {sender : DataSender} {content : List UInt8}
    (h : ¬ (content.length ≤ maxContent ∧ sender.counter + 1 ≤ u64Max)) :
    ∃ error, sender.encrypt content = (.error error, sender) := by
  rw [DataSender.encrypt]
  dsimp only
  by_cases hc : content.length ≤ maxContent
  · rw [ensure_of hc, ok_bind, ensure_of_not fun hn => h ⟨hc, hn⟩]
    exact ⟨_, rfl⟩
  · rw [ensure_of_not hc]
    exact ⟨_, rfl⟩

theorem DataSender.Seals.encode_isOk (rfc : Ciborium.Rfc8949) (hprim : Primitives.Correct)
    {sender : DataSender} {content : List UInt8} {payload : DataPayload}
    (h : sender.Seals content payload) : ∃ frame, encodePayload payload = .ok frame ∧
      frame.messageType = .data ∧ decodePayload frame.payload = .ok payload := by
  have hmax : maxContent = 65536 := rfl
  have hframe : maxFrameSize = 1048576 := rfl
  have htag : aeadTagSize = 16 := rfl
  have hc := h.content_le
  have hn := h.counter_lt
  obtain ⟨p, bs, aad, hp, hb, -, he⟩ := h.sealed
  obtain ⟨p', hp', hpad⟩ := padded_isOk hc
  obtain rfl := Except.ok.inj (hp.symm.trans hp')
  obtain ⟨bs', hb', hlen, -⟩ := hpad.encode_isOk rfc
  obtain rfl := Except.ok.inj (hb.symm.trans hb')
  obtain ⟨ct, hct, hctlen⟩ := hprim.aeadEncrypt_length sender.messageKey
    (messageNonce sender.direction sender.counter) aad bs (by omega)
  rw [encryptMessage, hct, okOr_some] at he
  obtain rfl := Except.ok.inj he
  refine encodePayload_isOk rfc payload (by omega) (by omega) ?_
  rw [h.counter_eq]
  omega

/-- Sealing fails only on its two limits. -/
theorem DataSender.encrypt_isOk (rfc : Ciborium.Rfc8949) (hprim : Primitives.Correct)
    {sender : DataSender} {content : List UInt8} (hc : content.length ≤ maxContent)
    (hn : sender.counter + 1 ≤ u64Max) : ∃ frame payload, sender.encrypt content = (.ok frame, sender.next) ∧
      sender.Seals content payload ∧ frame.messageType = .data ∧
      decodePayload frame.payload = .ok payload := by
  have hmax : maxContent = 65536 := rfl
  obtain ⟨p, hp, hpad⟩ := padded_isOk hc
  obtain ⟨bs, hb, hlen, -⟩ := hpad.encode_isOk rfc
  obtain ⟨aad, ha⟩ := dataAad_isOk rfc sender.sessionId sender.direction sender.counter
  obtain ⟨ct, hct, -⟩ := hprim.aeadEncrypt_length sender.messageKey
    (messageNonce sender.direction sender.counter) aad bs (by omega)
  have he : encryptMessage sender.messageKey (messageNonce sender.direction sender.counter) aad bs =
      .ok ct := by
    rw [encryptMessage, hct]
    rfl
  have hseals : sender.Seals content ⟨sender.sessionId, sender.direction, sender.counter, ct⟩ :=
    ⟨rfl, rfl, rfl, hc, hn, p, bs, aad, hp, hb, ha, he⟩
  obtain ⟨frame, hf, ht, hd⟩ := hseals.encode_isOk rfc hprim
  refine ⟨frame, _, ?_, hseals, ht, hd⟩
  rw [messageKey] at he
  rw [encrypt]
  simp only [ensure_of hc, ensure_of hn, hp, hb, ha, he, ok_bind, pure, Except.pure]
  rw [hf]
  rfl

end Sealing

end Codec

end Ruxmsg

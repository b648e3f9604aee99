import Ruxmsg.Canonical

namespace Ruxmsg

open Library.Cbor

theorem uint_eq {n : Nat} (h : n < 2 ^ 64) : uint n = .integer n := by
  rw [uint, Nat.mod_eq_of_lt h]

def optionalField {n : Nat} (key : Nat) (value : Option (Bytes n)) : List (Nat × Value) :=
  match value with
  | some b => [(key, bytes b.val)]
  | none => []

theorem optionalEntry_eq {n key : Nat} (h : key < 2 ^ 64) (value : Option (Bytes n)) :
    optionalEntry key value = keyed (optionalField key value) := by
  cases value with
  | none => rfl
  | some b => simp [optionalEntry, optionalField, keyed, uint_eq h]

def HelloPayload.fields (p : HelloPayload) : List (Nat × Value) :=
  [(0, uint 1), (1, uint p.cipherSuite), (2, uint p.purpose.toNat), (3, uint p.role.toNat),
    (4, bytes p.identityPublicKey.val), (5, bytes p.ephemeralPublicKey.val), (6, bytes p.nonce.val)] ++
  optionalField 7 p.previousSessionId

def CommitPayload.fields (p : CommitPayload) : List (Nat × Value) :=
  [(0, uint 1), (1, uint p.cipherSuite), (2, uint p.purpose.toNat), (3, bytes p.commitment.val)] ++
  optionalField 4 p.previousSessionId

def HandshakePayload.fields (p : HandshakePayload) : List (Nat × Value) :=
  [(0, uint p.purpose.toNat), (1, uint p.stage), (2, uint p.cipherSuite),
    (3, bytes p.initiatorIdentity.val), (4, bytes p.responderIdentity.val),
    (5, bytes p.initiatorEphemeral.val), (6, bytes p.responderEphemeral.val),
    (7, bytes p.initiatorNonce.val), (8, bytes p.responderNonce.val)] ++
  optionalField 9 p.previousSessionId ++
  [(10, bytes p.initiatorSignature.val)] ++ optionalField 11 p.responderSignature

def SessionConfirmPayload.fields (p : SessionConfirmPayload) : List (Nat × Value) :=
  [(0, bytes p.sessionId.val), (1, uint p.role.toNat), (2, bytes p.confirmation.val)]

def ClosePayload.fields (p : ClosePayload) : List (Nat × Value) :=
  optionalField 0 p.sessionId ++ [(1, uint p.reason.toNat)] ++
  match p.detail with
  | some detail => [(2, .text detail)]
  | none => []

def Transcript.fields (t : Transcript) : List (Nat × Value) :=
  [(0, uint 1), (1, uint t.cipherSuite), (2, uint t.purpose.toNat), (3, uint 0), (4, uint 1)] ++
  optionalField 5 t.previousSessionId ++
  [(6, bytes t.initiatorIdentity.val), (7, bytes t.responderIdentity.val),
    (8, bytes t.initiatorEphemeral.val), (9, bytes t.responderEphemeral.val),
    (10, bytes t.initiatorNonce.val), (11, bytes t.responderNonce.val)]

theorem Transcript.entries_eq (t : Transcript) : t.entries = keyed t.fields := by
  obtain ⟨_, _, _, _, _, _, _, _, previous⟩ := t
  cases previous <;> rfl

theorem HelloPayload.entries_eq (p : HelloPayload) : p.entries = keyed p.fields := by
  rw [entries, fields, optionalEntry_eq (by decide)]
  simp [keyed, uint_eq]

theorem CommitPayload.entries_eq (p : CommitPayload) : p.entries = keyed p.fields := by
  rw [entries, fields, optionalEntry_eq (by decide)]
  simp [keyed, uint_eq]

theorem SessionConfirmPayload.entries_eq (p : SessionConfirmPayload) : p.entries = keyed p.fields := by
  simp [entries, fields, keyed, uint_eq]

theorem HandshakePayload.entries_eq (p : HandshakePayload) : p.entries = keyed p.fields := by
  obtain ⟨_, _, _, _, _, _, _, _, _, previous, _, signature⟩ := p
  cases previous <;> cases signature <;> rfl

theorem ClosePayload.entries_eq (p : ClosePayload) : p.entries = keyed p.fields := by
  obtain ⟨sessionId, _, detail⟩ := p
  cases sessionId <;> cases detail <;> rfl

section Shape

@[simp] theorem scalar_uint (n : Nat) : Scalar (uint n) := trivial

@[simp] theorem scalar_bytes (b : List UInt8) : Scalar (bytes b) := trivial

@[simp] theorem scalar_text (s : String) : Scalar (.text s) := trivial

@[simp] theorem encodable_uint (n : Nat) : (uint n).Encodable := by
  have h : n % 2 ^ 64 < 2 ^ 64 := Nat.mod_lt _ (by decide)
  constructor <;> omega

@[simp] theorem encodable_bytes {n : Nat} (b : Bytes n) : (bytes b.val).Encodable ↔ n < 2 ^ 64 := by
  rw [bytes, Value.Encodable, b.property]

theorem HelloPayload.fieldsOk (p : HelloPayload) : FieldsOk p.fields := by
  obtain ⟨_, _, _, _, _, _, previous⟩ := p
  cases previous <;> constructor <;> simp [fields, optionalField]

theorem CommitPayload.fieldsOk (p : CommitPayload) : FieldsOk p.fields := by
  obtain ⟨_, _, _, previous⟩ := p
  cases previous <;> constructor <;> simp [fields, optionalField]

theorem HandshakePayload.fieldsOk (p : HandshakePayload) : FieldsOk p.fields := by
  obtain ⟨_, _, _, _, _, _, _, _, _, previous, _, signature⟩ := p
  cases previous <;> cases signature <;> constructor <;> simp [fields, optionalField]

theorem SessionConfirmPayload.fieldsOk (p : SessionConfirmPayload) : FieldsOk p.fields := by
  constructor <;> simp [fields]

theorem Transcript.fieldsOk (t : Transcript) : FieldsOk t.fields := by
  obtain ⟨_, _, _, _, _, _, _, _, previous⟩ := t
  cases previous <;> constructor <;> simp [fields, optionalField]

theorem encodable_text_of_le {s : String} (h : s.utf8ByteSize ≤ maxDetailBytes) :
    (Value.text s).Encodable := by
  have hl : (utf8 s).length = s.utf8ByteSize := by simp [utf8]
  have hm : maxDetailBytes = 128 := rfl
  rw [Value.Encodable, hl]
  omega

theorem ClosePayload.fieldsOk (p : ClosePayload)
    (h : ∀ detail, p.detail = some detail → detail.utf8ByteSize ≤ maxDetailBytes) :
    FieldsOk p.fields := by
  obtain ⟨sessionId, _, detail⟩ := p
  cases sessionId <;> cases detail with
  | none => constructor <;> simp [fields, optionalField]
  | some detail =>
      have := encodable_text_of_le (h detail rfl)
      constructor <;> simp [fields, optionalField, this]

theorem length_head_le (major n : Nat) : (head major n).length ≤ 9 := by
  rw [length_head]
  split_ifs <;> omega

def weight : Value → Nat
  | .bytes b => 9 + b.length
  | .text s => 9 + s.utf8ByteSize
  | _ => 9

@[simp] theorem weight_uint (n : Nat) : weight (uint n) = 9 := rfl

@[simp] theorem weight_text (s : String) : weight (.text s) = 9 + s.utf8ByteSize := rfl

@[simp] theorem weight_bytes {n : Nat} (b : Bytes n) : weight (bytes b.val) = 9 + n := by
  rw [bytes, weight, b.property]

theorem length_encode_le_weight {v : Value} (h : Scalar v) : v.encode.length ≤ weight v := by
  cases v with
  | integer i =>
      rw [Value.encode]
      split_ifs <;> exact length_head_le _ _
  | bytes b =>
      rw [Value.encode, weight, List.length_append]
      exact Nat.add_le_add_right (length_head_le _ _) _
  | text s =>
      have hl : (utf8 s).length = s.utf8ByteSize := by simp [utf8]
      rw [Value.encode, weight, List.length_append, hl]
      exact Nat.add_le_add_right (length_head_le _ _) _
  | array | map => exact h.elim

/-- A bound on the encoding of a map from bounds on its values. -/
theorem length_encode_keyed {fields : List (Nat × Value)} (h : ∀ field ∈ fields, Scalar field.2) :
    (Value.map (keyed fields)).encode.length ≤
      9 + (fields.map fun field => 9 + weight field.2).sum := by
  have hentries : (encodeEntries (keyed fields)).length ≤
      (fields.map fun field => 9 + weight field.2).sum := by
    induction fields with
    | nil => exact le_rfl
    | cons field fields ih =>
        have hk : (Value.integer (field.1 : Int)).encode.length ≤ 9 := by
          rw [Value.encode, if_pos (by omega)]
          exact length_head_le _ _
        have hv := length_encode_le_weight (h field List.mem_cons_self)
        have ih := ih fun f hf => h f (List.mem_cons_of_mem _ hf)
        rw [keyed] at ih ⊢
        rw [List.map_cons, encodeEntries, List.map_cons, List.sum_cons]
        simp only [List.length_append]
        omega
  rw [Value.encode, List.length_append]
  exact Nat.add_le_add (length_head_le _ _) hentries

theorem HelloPayload.length_le (p : HelloPayload) :
    (Value.map (keyed p.fields)).encode.length ≤ 1024 := by
  refine (length_encode_keyed p.fieldsOk.scalar).trans ?_
  obtain ⟨_, _, _, _, _, _, previous⟩ := p
  cases previous <;> simp [fields, optionalField]

theorem CommitPayload.length_le (p : CommitPayload) :
    (Value.map (keyed p.fields)).encode.length ≤ 1024 := by
  refine (length_encode_keyed p.fieldsOk.scalar).trans ?_
  obtain ⟨_, _, _, previous⟩ := p
  cases previous <;> simp [fields, optionalField]

theorem HandshakePayload.length_le (p : HandshakePayload) :
    (Value.map (keyed p.fields)).encode.length ≤ 1024 := by
  refine (length_encode_keyed p.fieldsOk.scalar).trans ?_
  obtain ⟨_, _, _, _, _, _, _, _, _, previous, _, signature⟩ := p
  cases previous <;> cases signature <;> simp [fields, optionalField]

theorem SessionConfirmPayload.length_le (p : SessionConfirmPayload) :
    (Value.map (keyed p.fields)).encode.length ≤ 128 := by
  refine (length_encode_keyed p.fieldsOk.scalar).trans ?_
  simp [fields]

theorem ClosePayload.length_le (p : ClosePayload)
    (h : ∀ detail, p.detail = some detail → detail.utf8ByteSize ≤ maxDetailBytes) :
    (Value.map (keyed p.fields)).encode.length ≤ 256 := by
  refine (length_encode_keyed (p.fieldsOk h).scalar).trans ?_
  obtain ⟨sessionId, _, detail⟩ := p
  cases sessionId <;> cases detail with
  | none => simp [fields, optionalField]
  | some detail =>
      have := h detail rfl
      have hm : maxDetailBytes = 128 := rfl
      simp [fields, optionalField]
      omega

end Shape

section Codec

variable [Ciborium]

omit [Ciborium] in
theorem uintValue_uint {n : Nat} (h : n ≤ u64Max) (e : Error) : uintValue (uint n) e = .ok n := by
  have hmax : u64Max = 18446744073709551615 := rfl
  rw [uint_eq (by omega), uintValue, u64TryFrom, if_pos ⟨by omega, by omega⟩, okOr_some,
    Int.toNat_natCast]

omit [Ciborium] in
@[simp] theorem uintValue_one (e : Error) : uintValue (uint 1) e = .ok 1 := uintValue_uint (by decide) e

omit [Ciborium] in
@[simp] theorem uintValue_zero (e : Error) : uintValue (uint 0) e = .ok 0 := uintValue_uint (by decide) e

omit [Ciborium] in
@[simp] theorem uintValue_purpose (purpose : HandshakePurpose) (e : Error) :
    uintValue (uint purpose.toNat) e = .ok purpose.toNat :=
  uintValue_uint (by cases purpose <;> decide) e

omit [Ciborium] in
@[simp] theorem uintValue_role (role : HelloRole) (e : Error) :
    uintValue (uint role.toNat) e = .ok role.toNat :=
  uintValue_uint (by cases role <;> decide) e

omit [Ciborium] in
@[simp] theorem uintValue_reason (reason : CloseReason) (e : Error) :
    uintValue (uint reason.toNat) e = .ok reason.toNat :=
  uintValue_uint (by cases reason <;> decide) e

omit [Ciborium] in
@[simp] theorem arrayValue_bytes {n : Nat} (b : Bytes n) (kind : String) :
    arrayValue n (bytes b.val) kind = .ok b := by
  simp [arrayValue, bytes]

omit [Ciborium] in
@[simp] theorem isHandshakeType_messageTypeForPurpose (purpose : HandshakePurpose) :
    isHandshakeType (messageTypeForPurpose purpose) = true := by
  cases purpose <;> rfl

/-- A frame of some type whose payload is the map of some fields. -/
structure Carries (frame : Frame) (messageType : MessageType) (fields : List (Nat × Value)) : Prop where
  type : frame.messageType = messageType
  map : frame.validateCborMap = .ok fields

theorem carries_of_encodeMap (rfc : Ciborium.Rfc8949) {messageType : MessageType}
    {fields : List (Nat × Value)} (h : FieldsOk fields)
    (hl : (Value.map (keyed fields)).encode.length ≤ messageType.maxPayload) {frame : Frame}
    (hf : encodeMap messageType (keyed fields) = .ok frame) : Carries frame messageType fields := by
  obtain ⟨frame', hf', ht, -, hm⟩ := encodeMap_keyed rfc messageType h hl
  obtain rfl := Except.ok.inj (hf.symm.trans hf')
  exact ⟨ht, hm⟩

theorem encodeMap_type {messageType : MessageType} {entries : List (Value × Value)} {frame : Frame}
    (h : encodeMap messageType entries = .ok frame) : frame.messageType = messageType := by
  simp only [encodeMap, Frame.new, bind_eq_ok, pure_eq_ok] at h
  obtain ⟨_, _, _, _, _, _, rfl⟩ := h
  rfl

omit [Ciborium] in
theorem maxPayload_purpose (purpose : HandshakePurpose) :
    (messageTypeForPurpose purpose).maxPayload = 1024 := by
  cases purpose <;> rfl

section Hello

variable {p : HelloPayload} {frame : Frame}

theorem HelloPayload.encode_eq_ok : p.encode = .ok frame ↔ p.cipherSuite = 1 ∧
    previousFits p.purpose p.previousSessionId ∧
    encodeMap (messageTypeForPurpose p.purpose) (keyed p.fields) = .ok frame := by
  simp [encode, bind_eq_ok, ensure_eq_ok, p.entries_eq]

theorem HelloPayload.carries_of_encode (rfc : Ciborium.Rfc8949) (h : p.encode = .ok frame) :
    Carries frame (messageTypeForPurpose p.purpose) p.fields :=
  carries_of_encodeMap rfc p.fieldsOk (by rw [maxPayload_purpose]; exact p.length_le)
    (encode_eq_ok.1 h).2.2

theorem HelloPayload.encode_isOk (rfc : Ciborium.Rfc8949) (hsuite : p.cipherSuite = 1)
    (hfits : previousFits p.purpose p.previousSessionId) : ∃ frame, p.encode = .ok frame := by
  obtain ⟨frame, h, -⟩ := encodeMap_keyed rfc (messageTypeForPurpose p.purpose) p.fieldsOk
    (by rw [maxPayload_purpose]; exact p.length_le)
  exact ⟨frame, encode_eq_ok.2 ⟨hsuite, hfits, h⟩⟩

theorem HelloPayload.decode_of_carries (hsuite : p.cipherSuite = 1)
    (hfits : previousFits p.purpose p.previousSessionId)
    (h : Carries frame (messageTypeForPurpose p.purpose) p.fields) :
    HelloPayload.decode frame = .ok p := by
  obtain ⟨htype, hmap⟩ := h
  obtain ⟨suite, purpose, role, identity, ephemeral, nonce, previous⟩ := p
  dsimp only at hsuite hfits htype
  subst hsuite
  rw [HelloPayload.decode]
  cases previous <;>
    simp [hmap, htype, hfits, ok_bind, ensure, fields, optionalField, mapIntoFields, fillFields,
      takeField, takeOptional, identityValue, pure, Except.pure]

theorem HelloPayload.decode_encode (rfc : Ciborium.Rfc8949) (h : p.encode = .ok frame) :
    HelloPayload.decode frame = .ok p :=
  decode_of_carries (encode_eq_ok.1 h).1 (encode_eq_ok.1 h).2.1 (carries_of_encode rfc h)

end Hello

section Commit

variable {p : CommitPayload} {frame : Frame}

theorem CommitPayload.encode_eq_ok : p.encode = .ok frame ↔ p.cipherSuite = 1 ∧
    previousFits p.purpose p.previousSessionId ∧
    encodeMap (messageTypeForPurpose p.purpose) (keyed p.fields) = .ok frame := by
  simp [encode, bind_eq_ok, ensure_eq_ok, p.entries_eq]

theorem CommitPayload.carries_of_encode (rfc : Ciborium.Rfc8949) (h : p.encode = .ok frame) :
    Carries frame (messageTypeForPurpose p.purpose) p.fields :=
  carries_of_encodeMap rfc p.fieldsOk (by rw [maxPayload_purpose]; exact p.length_le)
    (encode_eq_ok.1 h).2.2

theorem CommitPayload.encode_isOk (rfc : Ciborium.Rfc8949) (hsuite : p.cipherSuite = 1)
    (hfits : previousFits p.purpose p.previousSessionId) : ∃ frame, p.encode = .ok frame := by
  obtain ⟨frame, h, -⟩ := encodeMap_keyed rfc (messageTypeForPurpose p.purpose) p.fieldsOk
    (by rw [maxPayload_purpose]; exact p.length_le)
  exact ⟨frame, encode_eq_ok.2 ⟨hsuite, hfits, h⟩⟩

theorem CommitPayload.decode_of_carries (hsuite : p.cipherSuite = 1)
    (hfits : previousFits p.purpose p.previousSessionId)
    (h : Carries frame (messageTypeForPurpose p.purpose) p.fields) :
    CommitPayload.decode frame = .ok p := by
  obtain ⟨htype, hmap⟩ := h
  obtain ⟨suite, purpose, commitment, previous⟩ := p
  dsimp only at hsuite hfits htype
  subst hsuite
  rw [CommitPayload.decode]
  cases previous <;>
    simp [hmap, htype, hfits, ok_bind, ensure, fields, optionalField, mapIntoFields, fillFields,
      takeField, takeOptional, pure, Except.pure]

theorem CommitPayload.decode_encode (rfc : Ciborium.Rfc8949) (h : p.encode = .ok frame) :
    CommitPayload.decode frame = .ok p :=
  decode_of_carries (encode_eq_ok.1 h).1 (encode_eq_ok.1 h).2.1 (carries_of_encode rfc h)

end Commit

section Auth

variable {p : HandshakePayload} {frame : Frame}

omit [Ciborium] in
/-- The stages and the signatures that go with them, as `encode` accepts them. -/
def HandshakePayload.StageFits (p : HandshakePayload) : Prop :=
  (p.stage = 0 ∧ p.responderSignature.isNone) ∨ (p.stage = 1 ∧ p.responderSignature.isSome)

theorem HandshakePayload.encode_isOk (rfc : Ciborium.Rfc8949) (hsuite : p.cipherSuite = 1)
    (hstage : p.StageFits) (hfits : previousFits p.purpose p.previousSessionId) :
    ∃ frame, p.encode = .ok frame := by
  obtain ⟨frame, h, -⟩ := encodeMap_keyed rfc (messageTypeForPurpose p.purpose) p.fieldsOk
    (by rw [maxPayload_purpose]; exact p.length_le)
  refine ⟨frame, ?_⟩
  have hs : ¬ (1 < p.stage ∨ p.stage = 0 ∧ p.responderSignature.isSome) := by
    obtain ⟨h0, hn⟩ | ⟨h1, -⟩ := hstage
    · simp only [Option.isNone_iff_eq_none] at hn
      simp [h0, hn]
    · simp [h1]
  rw [encode, ensure_of hsuite, ensure_of hs, ensure_of hfits, p.entries_eq]
  exact h

theorem HandshakePayload.carries_of_encode (rfc : Ciborium.Rfc8949) (h : p.encode = .ok frame) :
    Carries frame (messageTypeForPurpose p.purpose) p.fields := by
  simp only [encode, bind_eq_ok, ensure_eq_ok, p.entries_eq] at h
  obtain ⟨_, _, _, _, _, _, h⟩ := h
  exact carries_of_encodeMap rfc p.fieldsOk (by rw [maxPayload_purpose]; exact p.length_le) h

theorem HandshakePayload.decode_of_carries (hsuite : p.cipherSuite = 1) (hstage : p.StageFits)
    (hfits : previousFits p.purpose p.previousSessionId)
    (h : Carries frame (messageTypeForPurpose p.purpose) p.fields) :
    HandshakePayload.decode frame = .ok p := by
  obtain ⟨htype, hmap⟩ := h
  obtain ⟨purpose, stage, suite, a, b, c, d, e, f, previous, g, signature⟩ := p
  dsimp only [StageFits] at hsuite hfits htype hstage
  subst hsuite
  rw [HandshakePayload.decode]
  obtain ⟨rfl, hsig⟩ | ⟨rfl, hsig⟩ := hstage
  · obtain rfl := Option.isNone_iff_eq_none.1 hsig
    cases previous <;>
      simp [hmap, htype, hfits, ok_bind, ensure, fields, optionalField, mapIntoFields, fillFields,
        takeField, takeOptional, identityValue, pure, Except.pure]
  · obtain ⟨signature, rfl⟩ := Option.isSome_iff_exists.1 hsig
    cases previous <;>
      simp [hmap, htype, hfits, ok_bind, ensure, fields, optionalField, mapIntoFields, fillFields,
        takeField, takeOptional, identityValue, pure, Except.pure]

theorem HandshakePayload.decode_encode (rfc : Ciborium.Rfc8949) (hstage : p.StageFits)
    (h : p.encode = .ok frame) : HandshakePayload.decode frame = .ok p := by
  have hc := carries_of_encode rfc h
  simp only [encode, bind_eq_ok, ensure_eq_ok] at h
  obtain ⟨_, hsuite, _, _, _, hfits, -⟩ := h
  exact decode_of_carries hsuite hstage hfits hc

end Auth

section Confirm

variable {p : SessionConfirmPayload} {frame : Frame}

theorem SessionConfirmPayload.encode_isOk (rfc : Ciborium.Rfc8949) : ∃ frame, p.encode = .ok frame := by
  obtain ⟨frame, h, -⟩ := encodeMap_keyed rfc .sessionConfirm p.fieldsOk p.length_le
  rw [encode, p.entries_eq]
  exact ⟨frame, h⟩

theorem SessionConfirmPayload.carries_of_encode (rfc : Ciborium.Rfc8949) (h : p.encode = .ok frame) :
    Carries frame .sessionConfirm p.fields := by
  have hl : (Value.map (keyed p.fields)).encode.length ≤ MessageType.maxPayload .sessionConfirm :=
    p.length_le
  rw [encode, p.entries_eq] at h
  exact carries_of_encodeMap rfc p.fieldsOk hl h

theorem SessionConfirmPayload.decode_encode (rfc : Ciborium.Rfc8949) (h : p.encode = .ok frame) :
    SessionConfirmPayload.decode frame = .ok p := by
  obtain ⟨htype, hmap⟩ := carries_of_encode rfc h
  simp [SessionConfirmPayload.decode, hmap, htype, ok_bind, ensure, fields, mapIntoFields, fillFields,
    takeField, pure, Except.pure, mapError]

end Confirm

section Transcripts

theorem Transcript.encode_eq_ok (rfc : Ciborium.Rfc8949) {t : Transcript} {encoded : List UInt8} :
    t.encode = .ok encoded ↔ encoded = (Value.map (keyed t.fields)).encode := by
  rw [encode, t.entries_eq, rfc.writes _ t.fieldsOk.map_encodable, encodingError, Except.ok.injEq,
    eq_comm]

theorem Transcript.encode_injective (rfc : Ciborium.Rfc8949) {t t' : Transcript}
    {encoded : List UInt8} (hs : t.cipherSuite = t'.cipherSuite) (h : t.encode = .ok encoded)
    (h' : t'.encode = .ok encoded) : t = t' := by
  have hv := (encode_eq_ok rfc).1 h
  rw [(encode_eq_ok rfc).1 h'] at hv
  have hmap := Library.Cbor.encode_injective t'.fieldsOk.map_encodable t.fieldsOk.map_encodable hv
  obtain ⟨purpose, _, _, _, _, _, _, _, previous⟩ := t
  obtain ⟨purpose', _, _, _, _, _, _, _, previous'⟩ := t'
  have hpurpose : ∀ {p q : HandshakePurpose}, uint p.toNat = uint q.toNat → p = q := by
    intro p q h
    cases p <;> cases q <;> first | rfl | cases h
  cases previous <;> cases previous' <;>
    simp [fields, optionalField, keyed, bytes, Subtype.val_inj] at hmap hs ⊢ <;> grind

end Transcripts

section Kinds

variable {frame : Frame} {messageType : MessageType}

omit [Ciborium] in
@[simp] theorem identityValue_uint (n : Nat) : identityValue (uint n) = .error (.invalidLength "identity" 0 0) := rfl

/-- The three kinds of handshake payload differ in the number of their fields
or in the types of those fields, so a frame decodes as one of them at most. -/
theorem HelloPayload.not_commit {p : HelloPayload} (h : Carries frame messageType p.fields)
    (c : CommitPayload) : CommitPayload.decode frame ≠ .ok c := by
  intro hd
  obtain ⟨-, hmap⟩ := h
  obtain ⟨_, _, _, _, _, _, previous⟩ := p
  cases previous <;>
    simp [CommitPayload.decode, bind_eq_ok, ensure_eq_ok, hmap, fields, optionalField] at hd

/-- An AUTH has an identity under key 3, and something under key 8. -/
theorem HandshakePayload.fields_of_decode {a : HandshakePayload} {entries : List (Nat × Value)}
    (h : HandshakePayload.decode frame = .ok a) (hmap : frame.validateCborMap = .ok entries) :
    ∃ fields, mapIntoFields entries 12 .invalidHandshake = .ok fields ∧
      (∃ v, takeField fields 3 .invalidHandshake = .ok v ∧ ∃ b, identityValue v = .ok b) ∧
      ∃ v, takeField fields 8 .invalidHandshake = .ok v := by
  simp only [decode, bind_eq_ok] at h
  obtain ⟨_, -, entries', hm, fields, hfields, _, -, _, -, _, -, _, -, _, -, _, -, _, -, _, -, _, -,
    v, hv, b, hb, _, -, _, -, _, -, _, -, _, -, _, -, _, -, _, -, w, hw, -⟩ := h
  obtain rfl := Except.ok.inj (hmap.symm.trans hm)
  exact ⟨fields, hfields, ⟨v, hv, b, hb⟩, w, hw⟩

theorem HelloPayload.not_auth {p : HelloPayload} (h : Carries frame messageType p.fields)
    (a : HandshakePayload) : HandshakePayload.decode frame ≠ .ok a := by
  intro hd
  obtain ⟨fields, hf, ⟨v, hv, b, hb⟩, -⟩ := HandshakePayload.fields_of_decode hd h.map
  obtain ⟨_, _, role, _, _, _, previous⟩ := p
  have hv' : v = uint role.toNat := by
    cases previous <;>
    · cases hf
      cases hv
      rfl
  rw [hv', identityValue_uint] at hb
  cases hb

theorem CommitPayload.not_hello {p : CommitPayload} (h : Carries frame messageType p.fields)
    (c : HelloPayload) : HelloPayload.decode frame ≠ .ok c := by
  intro hd
  obtain ⟨-, hmap⟩ := h
  obtain ⟨_, _, _, previous⟩ := p
  cases previous <;>
    simp [HelloPayload.decode, bind_eq_ok, ensure_eq_ok, hmap, fields, optionalField] at hd

theorem CommitPayload.not_auth {p : CommitPayload} (h : Carries frame messageType p.fields)
    (a : HandshakePayload) : HandshakePayload.decode frame ≠ .ok a := by
  intro hd
  obtain ⟨fields, hf, -, v, hv⟩ := HandshakePayload.fields_of_decode hd h.map
  obtain ⟨_, _, _, previous⟩ := p
  cases previous <;>
  · cases hf
    cases hv

theorem HandshakePayload.not_hello {p : HandshakePayload} (h : Carries frame messageType p.fields)
    (c : HelloPayload) : HelloPayload.decode frame ≠ .ok c := by
  intro hd
  obtain ⟨-, hmap⟩ := h
  obtain ⟨_, _, _, _, _, _, _, _, _, previous, _, signature⟩ := p
  cases previous <;> cases signature <;>
    simp [HelloPayload.decode, bind_eq_ok, ensure_eq_ok, hmap, fields, optionalField] at hd

end Kinds

end Codec

end Ruxmsg

import Ruxmsg.DataFrames
import Ruxmsg.Framing

namespace Ruxmsg

open Library.Cbor

section Slots

def slots : Nat → List (Option Value) → List (Nat × Value)
  | _, [] => []
  | k, none :: fields => slots (k + 1) fields
  | k, some value :: fields => (k, value) :: slots (k + 1) fields

theorem mem_slots {k key : Nat} {value : Value} {fields : List (Option Value)} :
    (key, value) ∈ slots k fields ↔ ∃ i, key = k + i ∧ fields[i]? = some (some value) := by
  induction fields generalizing k with
  | nil => simp [slots]
  | cons field fields ih =>
      cases field with
      | none =>
          rw [slots, ih]
          constructor
          · rintro ⟨i, rfl, h⟩
            exact ⟨i + 1, by omega, h⟩
          · rintro ⟨i, rfl, h⟩
            cases i with
            | zero => simp at h
            | succ i => exact ⟨i, by omega, h⟩
      | some first =>
          rw [slots, List.mem_cons, ih]
          constructor
          · rintro (h | ⟨i, rfl, h⟩)
            · cases h
              exact ⟨0, rfl, rfl⟩
            · exact ⟨i + 1, by omega, h⟩
          · rintro ⟨i, rfl, h⟩
            cases i with
            | zero => exact .inl (by simpa [eq_comm] using h)
            | succ i => exact .inr ⟨i, by omega, h⟩

theorem slots_ascending (k : Nat) (fields : List (Option Value)) :
    (slots k fields).Pairwise fun a b => a.1 < b.1 := by
  induction fields generalizing k with
  | nil => exact List.Pairwise.nil
  | cons field fields ih =>
      cases field with
      | none => exact ih (k + 1)
      | some value =>
          refine List.pairwise_cons.2 ⟨?_, ih (k + 1)⟩
          rintro ⟨key, other⟩ hmem
          obtain ⟨i, rfl, -⟩ := mem_slots.1 hmem
          dsimp only
          omega

/-- Two lists in ascending order of their keys that hold the same entries. -/
theorem ascending_unique {as bs : List (Nat × Value)} (ha : as.Pairwise fun a b => a.1 < b.1)
    (hb : bs.Pairwise fun a b => a.1 < b.1) (h : ∀ key value, (key, value) ∈ as ↔ (key, value) ∈ bs) :
    as = bs := by
  have hanti : Std.Antisymm fun a b : Nat × Value => a.1 < b.1 :=
    ⟨fun _ _ hab hba => absurd hab hba.asymm⟩
  have hirrefl : Std.Irrefl fun a b : Nat × Value => a.1 < b.1 := ⟨fun a => lt_irrefl a.1⟩
  exact ha.eq_of_mem_iff hb fun entry => h entry.1 entry.2

/-- Filling keeps what was there and adds the entries; the induction is on the
entries. -/
theorem fillFields_eq_ok {invalid : Error} {fields filled : List (Option Value)}
    {entries : List (Nat × Value)} (h : fillFields invalid fields entries = .ok filled) :
    filled.length = fields.length ∧ ∀ key value, filled[key]? = some (some value) ↔
      fields[key]? = some (some value) ∨ (key, value) ∈ entries := by
  induction entries generalizing fields with
  | nil =>
      obtain rfl := Except.ok.inj h
      simp
  | cons entry entries ih =>
      obtain ⟨key, value⟩ := entry
      rw [fillFields] at h
      split at h
      next hempty =>
        obtain ⟨hlen, hmem⟩ := ih h
        have hlt : key < fields.length := (List.getElem?_eq_some_iff.1 hempty).1
        refine ⟨by rw [hlen, List.length_set], fun key' value' => ?_⟩
        rw [hmem, List.getElem?_set, List.mem_cons, Prod.mk.injEq]
        by_cases hkey : key = key'
        · subst hkey
          rw [hempty]
          simp [hlt, eq_comm]
        · simp [hkey, Ne.symm hkey]
      next => cases h

theorem entries_of_mapIntoFields {invalid : Error} {n : Nat} {entries : List (Nat × Value)}
    {fields : List (Option Value)} (hasc : entries.Pairwise fun a b => a.1 < b.1)
    (h : mapIntoFields entries n invalid = .ok fields) :
    entries = slots 0 ((List.range n).map fun i => fields[i]?.join) := by
  obtain ⟨hlen, hmem⟩ := fillFields_eq_ok h
  rw [List.length_replicate] at hlen
  have hfields : (List.range n).map (fun i => fields[i]?.join) = fields := by
    apply List.ext_getElem
    · simp [hlen]
    · intro i _ hi
      simp [hi]
  rw [hfields]
  apply ascending_unique hasc (slots_ascending 0 fields)
  intro key value
  rw [mem_slots]
  simp only [Nat.zero_add, exists_eq_left', hmem]
  simp [List.getElem?_replicate]

theorem takeField_eq_ok {fields : List (Option Value)} {index : Nat} {invalid : Error}
    {value : Value} : takeField fields index invalid = .ok value ↔ fields[index]? = some (some value) := by
  rw [takeField, okOr_eq_ok, Option.join_eq_some_iff]

/-- An optional slot that has been read: it was empty, or it held what was read. -/
theorem takeOptional_eq_ok {α : Type} {fields : List (Option Value)} {index : Nat}
    {read : Value → Result α} {o : Option α} (h : takeOptional fields index read = .ok o) :
    (o = none ∧ fields[index]?.join = none) ∨
      ∃ value a, fields[index]?.join = some value ∧ read value = .ok a ∧ o = some a := by
  rw [takeOptional] at h
  split at h
  next value hvalue =>
    obtain ⟨a, hread, h⟩ := bind_eq_ok.1 h
    exact .inr ⟨value, a, hvalue, hread, (pure_eq_ok.1 h).symm⟩
  next hvalue =>
    obtain rfl := Except.ok.inj h
    exact .inl ⟨rfl, hvalue⟩

end Slots

section Values

theorem Bytes.ofList?_eq_some {n : Nat} {bs : List UInt8} {b : Bytes n}
    (h : Bytes.ofList? n bs = some b) : bs = b.val := by
  rw [Bytes.ofList?] at h
  split at h
  · exact congrArg Subtype.val (Option.some.inj h)
  · cases h

theorem arrayValue_eq_ok {n : Nat} {value : Value} {kind : String} {b : Bytes n}
    (h : arrayValue n value kind = .ok b) : value = bytes b.val := by
  cases value with
  | bytes bs =>
      rw [arrayValue] at h
      cases hbs : Bytes.ofList? n bs with
      | none =>
          rw [hbs] at h
          cases h
      | some b' =>
          rw [hbs] at h
          obtain rfl := Except.ok.inj h
          rw [Bytes.ofList?_eq_some hbs, bytes]
  | integer | text | array | map => cases h

theorem mapError_eq_ok {α : Type} {result : Result α} {error : Error} {a : α} :
    mapError result error = .ok a ↔ result = .ok a := by
  cases result <;> simp [mapError]

theorem HandshakePurpose.tryFrom_eq_ok {value : Nat} {purpose : HandshakePurpose}
    (h : HandshakePurpose.tryFrom value = .ok purpose) : value = purpose.toNat := by
  rw [HandshakePurpose.tryFrom.eq_def] at h
  split at h <;> cases h <;> rfl

theorem HelloRole.tryFrom_eq_ok {value : Nat} {role : HelloRole}
    (h : HelloRole.tryFrom value = .ok role) : value = role.toNat := by
  rw [HelloRole.tryFrom.eq_def] at h
  split at h <;> cases h <;> rfl

theorem CloseReason.tryFrom_eq_ok {value : Nat} {reason : CloseReason}
    (h : CloseReason.tryFrom value = .ok reason) : value = reason.toNat := by
  rw [CloseReason.tryFrom.eq_def] at h
  split at h <;> cases h <;> rfl

theorem detailValue_eq_ok {value : Value} {detail : String} (h : detailValue value = .ok detail) :
    value = .text detail ∧ detail.utf8ByteSize ≤ maxDetailBytes := by
  cases value with
  | text s =>
      rw [detailValue] at h
      split at h
      next => cases h
      next hle =>
        obtain rfl := Except.ok.inj h
        exact ⟨rfl, Nat.le_of_not_lt hle⟩
  | integer | bytes | array | map => cases h

theorem takeOptional_array {n : Nat} {fields : List (Option Value)} {index : Nat}
    {read : Value → Result (Bytes n)} {o : Option (Bytes n)}
    (hread : ∀ value b, read value = .ok b → value = bytes b.val)
    (h : takeOptional fields index read = .ok o) :
    fields[index]?.join = o.map fun b => bytes b.val := by
  obtain ⟨rfl, hnone⟩ | ⟨value, b, hvalue, hb, rfl⟩ := takeOptional_eq_ok h
  · exact hnone
  · rw [hvalue, hread value b hb]
    rfl

end Values

section Codec

variable [Ciborium]

theorem validateCborMapPayload_writes {payload : List UInt8} {entries : List (Nat × Value)}
    (h : validateCborMapPayload payload = .ok entries) : payload.length ≤ maxFrameSize ∧
      encodingError (Ciborium.intoWriter (.map (keyed entries))) = .ok payload := by
  rw [validateCborMapPayload_eq] at h
  simp only [bind_eq_ok, ensure_eq_ok] at h
  obtain ⟨_, hsize, _, -, ⟨value, position⟩, -, _, -, h⟩ := h
  cases value with
  | map values =>
      simp only [canonicalMap, bind_eq_ok, ensure_eq_ok, pure_eq_ok] at h
      obtain ⟨collected, -, canonical, hwrite, _, rfl, rfl⟩ := h
      exact ⟨hsize, hwrite⟩
  | integer | bytes | text | array => cases h

/-- A frame that carries fields is what they encode to, within the limit of
its type. -/
theorem Carries.encodeMap_eq (rfc : Ciborium.Rfc8949) {frame : Frame} {messageType : MessageType}
    {fields : List (Nat × Value)} (h : Carries frame messageType fields) (hf : FieldsOk fields)
    (hl : (Value.map (keyed fields)).encode.length ≤ messageType.maxPayload) :
    encodeMap messageType (keyed fields) = .ok frame := by
  obtain ⟨rfl, hmap⟩ := h
  obtain ⟨-, hwrite⟩ := validateCborMapPayload_writes hmap
  have hpayload : frame.payload = (Value.map (keyed fields)).encode := by
    rw [rfc.writes _ hf.map_encodable, encodingError, Except.ok.injEq] at hwrite
    exact hwrite.symm
  rw [encodeMap, hwrite, ok_bind]
  apply Frame.new_eq_ok.2
  rw [hpayload]
  refine ⟨?_, hl⟩
  obtain ⟨version, messageType, payload⟩ := frame
  cases version
  cases hpayload
  rfl

theorem HelloPayload.carries_of_decode {frame : Frame} {p : HelloPayload}
    (h : HelloPayload.decode frame = .ok p) : p.cipherSuite = 1 ∧
      previousFits p.purpose p.previousSessionId ∧
        Carries frame (messageTypeForPurpose p.purpose) p.fields := by
  simp only [HelloPayload.decode, bind_eq_ok, ensure_eq_ok, pure_eq_ok, takeField_eq_ok] at h
  obtain ⟨_, -, entries, hmap, _, -, fields, hfields, v₀, h₀, n₀, hn₀, _, rfl, v₁, h₁, suite, hsuite, _,
    rfl, v₂, h₂, n₂, hn₂, purpose, hpurpose, v₃, h₃, n₃, hn₃, role, hrole, v₄, h₄, identity, hidentity,
    v₅, h₅, ephemeral, hephemeral, v₆, h₆, nonce, hnonce, previous, hprevious, _, hfits, _, htype,
    rfl⟩ := h
  obtain ⟨rfl, -⟩ := uintValue_eq_ok hn₀
  obtain ⟨rfl, -⟩ := uintValue_eq_ok hsuite
  obtain ⟨rfl, -⟩ := uintValue_eq_ok hn₂
  obtain ⟨rfl, -⟩ := uintValue_eq_ok hn₃
  obtain rfl := HandshakePurpose.tryFrom_eq_ok hpurpose
  obtain rfl := HelloRole.tryFrom_eq_ok hrole
  obtain rfl := arrayValue_eq_ok hidentity
  obtain rfl := arrayValue_eq_ok hephemeral
  obtain rfl := arrayValue_eq_ok hnonce
  have h₇ := takeOptional_array (fun _ _ => arrayValue_eq_ok) hprevious
  have hentries := entries_of_mapIntoFields (validateCborMapPayload_ascending hmap) hfields
  simp only [List.range_succ, List.range_zero, List.nil_append, List.cons_append, List.map_cons,
    List.map_nil, h₀, h₁, h₂, h₃, h₄, h₅, h₆, h₇, Option.join_some] at hentries
  refine ⟨rfl, hfits, htype, ?_⟩
  rw [hmap, hentries]
  cases previous <;> rfl

theorem CommitPayload.carries_of_decode {frame : Frame} {p : CommitPayload}
    (h : CommitPayload.decode frame = .ok p) : p.cipherSuite = 1 ∧
      previousFits p.purpose p.previousSessionId ∧
        Carries frame (messageTypeForPurpose p.purpose) p.fields := by
  simp only [CommitPayload.decode, bind_eq_ok, ensure_eq_ok, pure_eq_ok, takeField_eq_ok] at h
  obtain ⟨_, -, entries, hmap, _, -, fields, hfields, v₀, h₀, n₀, hn₀, _, rfl, v₁, h₁, suite, hsuite, _,
    rfl, v₂, h₂, n₂, hn₂, purpose, hpurpose, v₃, h₃, commitment, hcommitment, previous, hprevious, _,
    hfits, _, htype, rfl⟩ := h
  obtain ⟨rfl, -⟩ := uintValue_eq_ok hn₀
  obtain ⟨rfl, -⟩ := uintValue_eq_ok hsuite
  obtain ⟨rfl, -⟩ := uintValue_eq_ok hn₂
  obtain rfl := HandshakePurpose.tryFrom_eq_ok hpurpose
  obtain rfl := arrayValue_eq_ok hcommitment
  have h₄ := takeOptional_array (fun _ _ => arrayValue_eq_ok) hprevious
  have hentries := entries_of_mapIntoFields (validateCborMapPayload_ascending hmap) hfields
  simp only [List.range_succ, List.range_zero, List.nil_append, List.cons_append, List.map_cons,
    List.map_nil, h₀, h₁, h₂, h₃, h₄, Option.join_some] at hentries
  refine ⟨rfl, hfits, htype, ?_⟩
  rw [hmap, hentries]
  cases previous <;> rfl

theorem HandshakePayload.carries_of_decode {frame : Frame} {p : HandshakePayload}
    (h : HandshakePayload.decode frame = .ok p) : p.cipherSuite = 1 ∧ p.StageFits ∧
      previousFits p.purpose p.previousSessionId ∧
        Carries frame (messageTypeForPurpose p.purpose) p.fields := by
  simp only [HandshakePayload.decode, bind_eq_ok, ensure_eq_ok, pure_eq_ok, takeField_eq_ok] at h
  obtain ⟨_, -, entries, hmap, fields, hfields, v₀, h₀, n₀, hn₀, purpose, hpurpose, v₁, h₁, stage,
    hstage, _, -, v₂, h₂, suite, hsuite, _, rfl, v₃, h₃, b₃, hb₃, v₄, h₄, b₄, hb₄, v₅, h₅, b₅, hb₅,
    v₆, h₆, b₆, hb₆, v₇, h₇, b₇, hb₇, v₈, h₈, b₈, hb₈, previous, hprevious, v₁₀, h₁₀, b₁₀, hb₁₀,
    signature, hsignature, _, hfit, _, hfits, _, htype, rfl⟩ := h
  obtain ⟨rfl, -⟩ := uintValue_eq_ok hn₀
  obtain ⟨rfl, -⟩ := uintValue_eq_ok hstage
  obtain ⟨rfl, -⟩ := uintValue_eq_ok hsuite
  obtain rfl := HandshakePurpose.tryFrom_eq_ok hpurpose
  obtain rfl := arrayValue_eq_ok hb₃
  obtain rfl := arrayValue_eq_ok hb₄
  obtain rfl := arrayValue_eq_ok hb₅
  obtain rfl := arrayValue_eq_ok hb₆
  obtain rfl := arrayValue_eq_ok hb₇
  obtain rfl := arrayValue_eq_ok hb₈
  obtain rfl := arrayValue_eq_ok hb₁₀
  have h₉ := takeOptional_array (fun _ _ => arrayValue_eq_ok) hprevious
  have h₁₁ := takeOptional_array (fun _ _ => arrayValue_eq_ok) hsignature
  have hentries := entries_of_mapIntoFields (validateCborMapPayload_ascending hmap) hfields
  simp only [List.range_succ, List.range_zero, List.nil_append, List.cons_append, List.map_cons,
    List.map_nil, h₀, h₁, h₂, h₃, h₄, h₅, h₆, h₇, h₈, h₉, h₁₀, h₁₁, Option.join_some] at hentries
  refine ⟨rfl, ?_, hfits, htype, ?_⟩
  · dsimp only [HandshakePayload.StageFits]
    simp only [not_or, not_and, Option.isNone_iff_eq_none, Option.isSome_iff_ne_none, ne_eq,
      not_not] at hfit ⊢
    obtain ⟨hle, hone, hzero⟩ := hfit
    by_cases hz : stage = 0
    · exact .inl ⟨hz, hzero hz⟩
    · have h1 : stage = 1 := by omega
      exact .inr ⟨h1, hone h1⟩
  · rw [hmap, hentries]
    cases previous <;> cases signature <;> rfl

theorem SessionConfirmPayload.carries_of_decode {frame : Frame} {p : SessionConfirmPayload}
    (h : SessionConfirmPayload.decode frame = .ok p) : Carries frame .sessionConfirm p.fields := by
  simp only [SessionConfirmPayload.decode, bind_eq_ok, ensure_eq_ok, pure_eq_ok, takeField_eq_ok,
    mapError_eq_ok] at h
  obtain ⟨_, htype, entries, hmap, _, -, fields, hfields, v₀, h₀, sessionId, hsession, v₁, h₁, n₁, hn₁,
    role, hrole, v₂, h₂, confirmation, hconfirmation, rfl⟩ := h
  obtain rfl := arrayValue_eq_ok hsession
  obtain ⟨rfl, -⟩ := uintValue_eq_ok hn₁
  obtain rfl := HelloRole.tryFrom_eq_ok hrole
  obtain rfl := arrayValue_eq_ok hconfirmation
  have hentries := entries_of_mapIntoFields (validateCborMapPayload_ascending hmap) hfields
  simp only [List.range_succ, List.range_zero, List.nil_append, List.cons_append, List.map_cons,
    List.map_nil, h₀, h₁, h₂, Option.join_some] at hentries
  refine ⟨htype, ?_⟩
  rw [hmap, hentries]
  rfl

theorem ClosePayload.carries_of_decode {frame : Frame} {p : ClosePayload}
    (h : ClosePayload.decode frame = .ok p) :
    (∀ detail, p.detail = some detail → detail.utf8ByteSize ≤ maxDetailBytes) ∧
      Carries frame .close p.fields := by
  simp only [ClosePayload.decode, bind_eq_ok, ensure_eq_ok, pure_eq_ok, takeField_eq_ok] at h
  obtain ⟨_, htype, entries, hmap, _, -, fields, hfields, sessionId, hsession, v₁, h₁, n₁, hn₁, reason,
    hreason, detail, hdetail, rfl⟩ := h
  obtain ⟨rfl, -⟩ := uintValue_eq_ok hn₁
  obtain rfl := CloseReason.tryFrom_eq_ok hreason
  have h₀ := takeOptional_array (fun _ _ hread => arrayValue_eq_ok (mapError_eq_ok.1 hread)) hsession
  have hentries := entries_of_mapIntoFields (validateCborMapPayload_ascending hmap) hfields
  obtain ⟨rfl, h₂⟩ | ⟨value, text, h₂, htext, rfl⟩ := takeOptional_eq_ok hdetail
  · simp only [List.range_succ, List.range_zero, List.nil_append, List.cons_append, List.map_cons,
      List.map_nil, h₀, h₁, h₂, Option.join_some] at hentries
    refine ⟨by simp, htype, ?_⟩
    rw [hmap, hentries]
    cases sessionId <;> rfl
  · obtain ⟨rfl, hle⟩ := detailValue_eq_ok htext
    simp only [List.range_succ, List.range_zero, List.nil_append, List.cons_append, List.map_cons,
      List.map_nil, h₀, h₁, h₂, Option.join_some] at hentries
    refine ⟨?_, htype, ?_⟩
    · intro detail hd
      obtain rfl := Option.some.inj hd
      exact hle
    · rw [hmap, hentries]
      cases sessionId <;> rfl

omit [Ciborium] in
/-- What `encode` asks of a stage and its signature. -/
def HandshakePayload.StageEncodes (p : HandshakePayload) : Prop :=
  ¬ (1 < p.stage ∨ p.stage = 0 ∧ p.responderSignature.isSome)

omit [Ciborium] in
theorem HandshakePayload.StageFits.encodes {p : HandshakePayload} (h : p.StageFits) :
    p.StageEncodes := by
  obtain ⟨h0, hn⟩ | ⟨h1, -⟩ := h
  · rw [Option.isNone_iff_eq_none] at hn
    simp [StageEncodes, h0, hn]
  · simp [StageEncodes, h1]

theorem HandshakePayload.encode_eq_ok {p : HandshakePayload} {frame : Frame} :
    p.encode = .ok frame ↔ p.cipherSuite = 1 ∧ p.StageEncodes ∧
      previousFits p.purpose p.previousSessionId ∧
        encodeMap (messageTypeForPurpose p.purpose) (keyed p.fields) = .ok frame := by
  simp [encode, StageEncodes, bind_eq_ok, ensure_eq_ok, p.entries_eq]

theorem ClosePayload.encode_eq_ok {p : ClosePayload} {frame : Frame} :
    p.encode = .ok frame ↔
      (∀ detail, p.detail = some detail → detail.utf8ByteSize ≤ maxDetailBytes) ∧
        encodeMap .close (keyed p.fields) = .ok frame := by
  cases hd : p.detail <;> simp [encode, bind_eq_ok, ensure_eq_ok, p.entries_eq, hd]

omit [Ciborium] in
theorem plaintextFields_keys {content padding : Option (List UInt8)} {entries : List (Nat × Value)}
    {read : Option (List UInt8) × Option (List UInt8)}
    (h : plaintextFields content padding entries = .ok read) : ∀ entry ∈ entries, entry.1 ≤ 1 := by
  induction entries generalizing content padding with
  | nil => simp
  | cons entry entries ih =>
      obtain ⟨key, value⟩ := entry
      unfold plaintextFields at h
      split at h
      · obtain ⟨_, -, h⟩ := bind_eq_ok.1 h
        exact List.forall_mem_cons.2 ⟨Nat.zero_le 1, ih h⟩
      · obtain ⟨_, -, h⟩ := bind_eq_ok.1 h
        exact List.forall_mem_cons.2 ⟨le_rfl, ih h⟩
      · cases h

theorem DataPlaintext.fields_of_decode {bs : List UInt8} {p : DataPlaintext}
    (h : DataPlaintext.decode bs = .ok p) : validateCborMapPayload bs = .ok p.fields := by
  simp only [DataPlaintext.decode, bind_eq_ok, ensure_eq_ok, pure_eq_ok, okOr_eq_ok] at h
  obtain ⟨entries, hmap, _, hlen, ⟨content', padding'⟩, hfields, padding, hpadding, content, hcontent,
    _, -, _, -, rfl⟩ := h
  have hasc := validateCborMapPayload_ascending hmap
  have hkeys := plaintextFields_keys hfields
  obtain ⟨⟨k₀, v₀⟩, ⟨k₁, v₁⟩, rfl⟩ := List.length_eq_two.1 hlen
  simp only [List.pairwise_cons, List.mem_cons, List.not_mem_nil, or_false,
    forall_eq_or_imp, forall_eq] at hasc hkeys
  obtain ⟨rfl, rfl⟩ : k₀ = 0 ∧ k₁ = 1 := by omega
  simp only [plaintextFields, bind_eq_ok, Except.ok.injEq, Prod.mk.injEq] at hfields
  obtain ⟨b₀, h₀, b₁, h₁, rfl, rfl⟩ := hfields
  obtain rfl := bytesValue_eq_ok h₀
  obtain rfl := bytesValue_eq_ok h₁
  obtain rfl := Option.some.inj hpadding
  obtain rfl := Option.some.inj hcontent
  exact hmap

/-- A value that a decoder returns encodes to the bytes it was read from. -/
theorem decoding_is_not_malleable (rfc : Ciborium.Rfc8949) :
    (∀ frame p, HelloPayload.decode frame = .ok p → p.encode = .ok frame) ∧
    (∀ frame p, CommitPayload.decode frame = .ok p → p.encode = .ok frame) ∧
    (∀ frame p, HandshakePayload.decode frame = .ok p → p.encode = .ok frame) ∧
    (∀ frame p, SessionConfirmPayload.decode frame = .ok p → p.encode = .ok frame) ∧
    (∀ frame p, ClosePayload.decode frame = .ok p → p.encode = .ok frame) ∧
    (∀ frame p, Frame.messageType frame = .data → decodePayload frame.payload = .ok p →
      encodePayload p = .ok frame) ∧
    ∀ bs p, DataPlaintext.decode bs = .ok p → p.encode = .ok bs := by
  refine ⟨?_, ?_, ?_, ?_, ?_, ?_, ?_⟩
  · intro frame p h
    obtain ⟨hsuite, hfits, hc⟩ := HelloPayload.carries_of_decode h
    refine HelloPayload.encode_eq_ok.2 ⟨hsuite, hfits, hc.encodeMap_eq rfc p.fieldsOk ?_⟩
    rw [maxPayload_purpose]
    exact p.length_le
  · intro frame p h
    obtain ⟨hsuite, hfits, hc⟩ := CommitPayload.carries_of_decode h
    refine CommitPayload.encode_eq_ok.2 ⟨hsuite, hfits, hc.encodeMap_eq rfc p.fieldsOk ?_⟩
    rw [maxPayload_purpose]
    exact p.length_le
  · intro frame p h
    obtain ⟨hsuite, hstage, hfits, hc⟩ := HandshakePayload.carries_of_decode h
    refine HandshakePayload.encode_eq_ok.2 ⟨hsuite, hstage.encodes, hfits,
      hc.encodeMap_eq rfc p.fieldsOk ?_⟩
    rw [maxPayload_purpose]
    exact p.length_le
  · intro frame p h
    rw [SessionConfirmPayload.encode, p.entries_eq]
    exact (SessionConfirmPayload.carries_of_decode h).encodeMap_eq rfc p.fieldsOk p.length_le
  · intro frame p h
    obtain ⟨hdetail, hc⟩ := ClosePayload.carries_of_decode h
    exact ClosePayload.encode_eq_ok.2
      ⟨hdetail, hc.encodeMap_eq rfc (p.fieldsOk hdetail) (p.length_le hdetail)⟩
  · intro frame p htype h
    obtain ⟨-, -, hmap⟩ := decodePayload_eq_ok.1 h
    obtain ⟨hsize, hwrite⟩ := validateCborMapPayload_writes hmap
    rw [encodePayload, p.entries_eq, hwrite, ok_bind]
    apply Frame.new_eq_ok.2
    obtain ⟨version, messageType, payload⟩ := frame
    cases version
    cases htype
    exact ⟨rfl, hsize⟩
  · intro bs p h
    obtain ⟨-, hwrite⟩ := validateCborMapPayload_writes (DataPlaintext.fields_of_decode h)
    rw [DataPlaintext.encode, p.entries_eq]
    exact hwrite

theorem ClosePayload.decode_of_carries {p : ClosePayload} {frame : Frame}
    (hd : ∀ detail, p.detail = some detail → detail.utf8ByteSize ≤ maxDetailBytes)
    (h : Carries frame .close p.fields) : ClosePayload.decode frame = .ok p := by
  obtain ⟨htype, hmap⟩ := h
  obtain ⟨sessionId, reason, detail⟩ := p
  have hreason : CloseReason.tryFrom reason.toNat = .ok reason := by cases reason <;> rfl
  rw [ClosePayload.decode]
  cases detail with
  | none =>
      cases sessionId <;>
        simp [hmap, htype, hreason, ok_bind, ensure, fields, optionalField, mapIntoFields, fillFields,
          takeField, takeOptional, mapError, pure, Except.pure]
  | some detail =>
      have hdetail : detailValue (.text detail) = .ok detail := by
        rw [detailValue, if_neg (Nat.not_lt.2 (hd detail rfl))]
      cases sessionId <;>
        simp [hmap, htype, hreason, hdetail, ok_bind, ensure, fields, optionalField, mapIntoFields,
          fillFields, takeField, takeOptional, mapError, pure, Except.pure]

theorem ClosePayload.decode_encode (rfc : Ciborium.Rfc8949) {p : ClosePayload} {frame : Frame}
    (h : p.encode = .ok frame) : ClosePayload.decode frame = .ok p := by
  obtain ⟨hdetail, hmap⟩ := ClosePayload.encode_eq_ok.1 h
  have hl : (Value.map (keyed p.fields)).encode.length ≤ MessageType.maxPayload .close :=
    p.length_le hdetail
  exact ClosePayload.decode_of_carries hdetail (carries_of_encodeMap rfc (p.fieldsOk hdetail) hl hmap)

theorem encodeMap_within {messageType : MessageType} {entries : List (Value × Value)} {frame : Frame}
    (h : encodeMap messageType entries = .ok frame) :
    frame.payload.length ≤ frame.messageType.maxPayload := by
  rw [encodeMap, bind_eq_ok] at h
  obtain ⟨encoded, -, h⟩ := h
  obtain ⟨rfl, hle⟩ := Frame.new_eq_ok.1 h
  exact hle

omit [Ciborium] in
/-- A final AUTH that lacks the signature of the responder, in order otherwise. -/
def HandshakePayload.Unsigned (p : HandshakePayload) : Prop :=
  p.stage = 1 ∧ p.responderSignature = none ∧ p.cipherSuite = 1 ∧
    previousFits p.purpose p.previousSessionId

/-- An AUTH that `encode` accepts is read back unless it is unsigned: only
`decode` asks for the signature at stage 1. -/
theorem HandshakePayload.decode_encode_iff (rfc : Ciborium.Rfc8949) (p : HandshakePayload) :
    (∀ frame, p.encode = .ok frame → HandshakePayload.decode frame = .ok p) ↔ ¬ p.Unsigned := by
  constructor
  · rintro hdecodes ⟨hstage, hsignature, hsuite, hfits⟩
    have hencodes : p.StageEncodes := by simp [StageEncodes, hstage]
    obtain ⟨frame, hmap, -⟩ := encodeMap_keyed rfc (messageTypeForPurpose p.purpose) p.fieldsOk
      (by rw [maxPayload_purpose]; exact p.length_le)
    have hdecode := hdecodes frame (encode_eq_ok.2 ⟨hsuite, hencodes, hfits, hmap⟩)
    obtain ⟨-, hfit, -⟩ := carries_of_decode hdecode
    obtain ⟨hzero, -⟩ | ⟨-, hsome⟩ := hfit
    · rw [hstage] at hzero
      cases hzero
    · rw [hsignature] at hsome
      cases hsome
  · intro hsigned frame h
    obtain ⟨hsuite, hencodes, hfits, -⟩ := encode_eq_ok.1 h
    refine decode_encode rfc ?_ h
    simp only [StageEncodes, not_or, not_and, Option.isSome_iff_ne_none, ne_eq, not_not] at hencodes
    obtain ⟨hle, hzero⟩ := hencodes
    by_cases hz : p.stage = 0
    · exact .inl ⟨hz, Option.isNone_iff_eq_none.2 (hzero hz)⟩
    · have h1 : p.stage = 1 := by omega
      refine .inr ⟨h1, Option.isSome_iff_ne_none.2 fun hnone => ?_⟩
      exact hsigned ⟨h1, hnone, hsuite, hfits⟩

/-- Encoders and decoders agree on every value but an unsigned AUTH, and no
encoder exceeds the limit of its type. -/
theorem encodings_decode_iff (rfc : Ciborium.Rfc8949) :
    (∀ (p : HelloPayload) frame, p.encode = .ok frame → HelloPayload.decode frame = .ok p ∧
      frame.payload.length ≤ frame.messageType.maxPayload) ∧
    (∀ (p : CommitPayload) frame, p.encode = .ok frame → CommitPayload.decode frame = .ok p ∧
      frame.payload.length ≤ frame.messageType.maxPayload) ∧
    (∀ p : HandshakePayload, (∀ frame, p.encode = .ok frame →
      HandshakePayload.decode frame = .ok p ∧
        frame.payload.length ≤ frame.messageType.maxPayload) ↔ ¬ p.Unsigned) ∧
    (∀ (p : SessionConfirmPayload) frame, p.encode = .ok frame →
      SessionConfirmPayload.decode frame = .ok p ∧
        frame.payload.length ≤ frame.messageType.maxPayload) ∧
    ∀ (p : ClosePayload) frame, p.encode = .ok frame → ClosePayload.decode frame = .ok p ∧
      frame.payload.length ≤ frame.messageType.maxPayload := by
  refine ⟨?_, ?_, ?_, ?_, ?_⟩
  · intro p frame h
    exact ⟨HelloPayload.decode_encode rfc h, encodeMap_within (HelloPayload.encode_eq_ok.1 h).2.2⟩
  · intro p frame h
    exact ⟨CommitPayload.decode_encode rfc h, encodeMap_within (CommitPayload.encode_eq_ok.1 h).2.2⟩
  · intro p
    rw [← HandshakePayload.decode_encode_iff rfc]
    constructor
    · intro h frame hframe
      exact (h frame hframe).1
    · intro h frame hframe
      exact ⟨h frame hframe, encodeMap_within (HandshakePayload.encode_eq_ok.1 hframe).2.2.2⟩
  · intro p frame h
    exact ⟨SessionConfirmPayload.decode_encode rfc h, encodeMap_within h⟩
  · intro p frame h
    exact ⟨ClosePayload.decode_encode rfc h, encodeMap_within (ClosePayload.encode_eq_ok.1 h).2⟩

end Codec

open Sample in
/-- A CLOSE with a detail, read and written again. -/
theorem decoding_is_not_malleable_close : ∃ p,
    ClosePayload.decode ⟨.v1, .close, [162, 1, 3, 2, 98, 104, 105]⟩ = .ok p ∧
      p.encode = .ok ⟨.v1, .close, [162, 1, 3, 2, 98, 104, 105]⟩ := by
  have hread : (ClosePayload.decode ⟨.v1, .close, [162, 1, 3, 2, 98, 104, 105]⟩).isOk = true := by
    decide +kernel
  cases hp : ClosePayload.decode ⟨.v1, .close, [162, 1, 3, 2, 98, 104, 105]⟩ with
  | error error =>
      rw [hp] at hread
      cases hread
  | ok p => exact ⟨p, rfl, (decoding_is_not_malleable Ciborium.reference_rfc8949).2.2.2.2.1 _ p hp⟩

namespace Sample

def unsignedAuth : HandshakePayload where
  purpose := .initial
  stage := 1
  cipherSuite := 1
  initiatorIdentity := Bytes.replicate 32 7
  responderIdentity := Bytes.replicate 32 9
  initiatorEphemeral := Bytes.replicate 32 1
  responderEphemeral := Bytes.replicate 32 2
  initiatorNonce := Bytes.replicate 16 3
  responderNonce := Bytes.replicate 16 4
  previousSessionId := none
  initiatorSignature := Bytes.replicate 64 5
  responderSignature := none

end Sample

open Sample in
theorem unsigned_auth_is_not_decodable : ∃ frame, unsignedAuth.encode = .ok frame ∧
    HandshakePayload.decode frame = .error .invalidHandshake := by
  have hrejected : (unsignedAuth.encode.toOption.all fun frame =>
      HandshakePayload.decode frame = .error .invalidHandshake) = true := by decide +kernel
  have hencode : unsignedAuth.encode.isOk = true := by decide +kernel
  cases hframe : unsignedAuth.encode with
  | ok frame =>
      rw [hframe] at hrejected
      exact ⟨frame, rfl, of_decide_eq_true hrejected⟩
  | error error =>
      rw [hframe] at hencode
      cases hencode

open Sample in
theorem encodings_decode_iff_sample :
    ¬ ∀ frame, unsignedAuth.encode = .ok frame → HandshakePayload.decode frame = .ok unsignedAuth ∧
      frame.payload.length ≤ frame.messageType.maxPayload := by
  intro h
  have hsigned := ((encodings_decode_iff Ciborium.reference_rfc8949).2.2.1 unsignedAuth).1 h
  exact hsigned ⟨rfl, rfl, rfl, rfl⟩

end Ruxmsg

import Ruxmsg.Arrivals
import Ruxmsg.Reachable

namespace Ruxmsg

open Library.Cbor Library.Machine

def Malformed (error : Error) : Prop := isMalformed error = true

def Dropped (error : Error) : Prop := isMalformed error = false

theorem malformed_error {α : Type} {error : Error} (h : isMalformed error = true) :
    FailsWith Malformed (.error error : Result α) :=
  .error h

theorem dropped_error {α : Type} {error : Error} (h : isMalformed error = false) :
    FailsWith Dropped (.error error : Result α) :=
  .error h

section Structure

theorem readCborArgument_fails (position : Nat) (rest : List UInt8) (additional : Nat) :
    FailsWith Malformed (readCborArgument position rest additional) := by
  rw [readCborArgument]
  refine .ite .ok ?_
  dsimp only
  split
  all_goals
    refine .bind ?_ fun bytes =>
      .ite (malformed_error rfl) (.ite (malformed_error rfl) (.ite .ok (malformed_error rfl)))
    first
      | exact .ok
      | exact malformed_error rfl

theorem scanHead_fails (position : Nat) (rest : List UInt8) (containers : Nat) :
    FailsWith Malformed (scanHead position rest containers) := by
  cases rest with
  | nil => exact malformed_error rfl
  | cons initial rest =>
      rw [scanHead]
      apply FailsWith.bind (readCborArgument_fails _ _ _)
      rintro ⟨value, position, rest⟩
      dsimp only
      refine .ite .ok (.ite ?_ (.ite ?_ (malformed_error rfl)))
      · exact .ite (malformed_error rfl) (.ite (malformed_error rfl) .ok)
      · exact .ite (malformed_error rfl) (.ite (.ite (malformed_error rfl) .ok) .ok)

theorem scanItems_fails (rounds position : Nat) (rest : List UInt8) (remaining : List Nat) :
    FailsWith Malformed (scanItems rounds position rest remaining) := by
  induction rounds generalizing position rest remaining with
  | zero => exact malformed_error rfl
  | succ rounds ih =>
      rw [scanItems]
      split
      · exact .ok
      · apply FailsWith.bind (scanHead_fails _ _ _)
        rintro ⟨position, rest, items⟩
        exact ih _ _ _

theorem collectEntries_fails (keys : List Nat) (entries : List (Value × Value)) :
    FailsWith Malformed (collectEntries keys entries) := by
  induction entries generalizing keys with
  | nil => exact .ok
  | cons entry entries ih =>
      obtain ⟨key, value⟩ := entry
      cases key with
      | integer i =>
          rw [collectEntries]
          cases u64TryFrom i with
          | none => exact malformed_error rfl
          | some key => exact .ite (malformed_error rfl) (.bind (ih _) fun _ => .ok)
      | bytes | text | array | map => exact malformed_error rfl

theorem encodingError_fails {α : Type} (e : Except String α) : FailsWith Malformed (encodingError e) := by
  cases e with
  | ok a => exact .ok
  | error message => exact malformed_error rfl

variable [Ciborium]

/-- The part of `validate_cbor_map_payload` after the value has been read. -/
def canonicalMap (payload : List UInt8) : Value → Result (List (Nat × Value))
  | .map entries => do
      let entries ← collectEntries [] entries
      let canonical ← encodingError (Ciborium.intoWriter
        (.map ((sortByKey entries).map fun entry => (.integer entry.1, entry.2))))
      ensure (canonical = payload) .nonCanonicalEncoding
      return sortByKey entries
  | _ => .error .invalidPayloadShape

theorem validateCborMapPayload_eq (payload : List UInt8) : validateCborMapPayload payload = (do
    ensure (payload.length ≤ maxFrameSize) (.invalidFrameLength (min payload.length u32Max))
    validateCborStructure payload
    let (value, position) ← encodingError (Ciborium.fromReader payload)
    ensure (position = payload.length) .nonCanonicalEncoding
    canonicalMap payload value) := by
  rw [validateCborMapPayload]
  by_cases hl : maxFrameSize < payload.length
  · rw [if_pos hl, ensure_of_not (Nat.not_le.2 hl)]
    rfl
  rw [if_neg hl, ensure_of (Nat.le_of_not_lt hl), ok_bind]
  dsimp only
  congr 1
  funext _
  congr 1
  funext read
  obtain ⟨value, position⟩ := read
  dsimp only
  by_cases hp : position = payload.length
  · rw [ensure_of hp, if_neg (not_not.2 hp), ok_bind]
    cases value with
    | map entries =>
        dsimp only
        rw [canonicalMap]
        congr 1
        funext entries
        congr 1
        funext canonical
        by_cases hc : canonical = payload
        · rw [ensure_of hc, if_neg (not_not.2 hc)]
          rfl
        · rw [ensure_of_not hc, if_pos hc]
    | integer | bytes | text | array => rfl
  · rw [ensure_of_not hp, if_pos hp]
    rfl

/-- Whatever is not a canonical map under unsigned keys is malformed. -/
theorem validateCborMapPayload_fails (payload : List UInt8) :
    FailsWith Malformed (validateCborMapPayload payload) := by
  rw [validateCborMapPayload_eq]
  refine .bind (.ensure rfl) fun _ => .bind (.bind (scanItems_fails _ _ _ _) fun _ =>
    .ite .ok (malformed_error rfl)) fun _ => .bind (encodingError_fails _) ?_
  rintro ⟨value, position⟩
  refine .bind (.ensure rfl) fun _ => ?_
  cases value with
  | map entries =>
      exact .bind (collectEntries_fails _ _) fun _ => .bind (encodingError_fails _) fun _ =>
        .bind (.ensure rfl) fun _ => .ok
  | integer | bytes | text | array => exact malformed_error rfl

end Structure

section DataMap

theorem bytesValue_fails (value : Value) : FailsWith Dropped (bytesValue value) := by
  cases value with
  | bytes b => exact .ok
  | integer | text | array | map => exact dropped_error rfl

theorem uintValue_fails (value : Value) : FailsWith Dropped (uintValue value .invalidDataPayload) := by
  cases value with
  | integer i => exact .okOr rfl
  | bytes | text | array | map => exact dropped_error rfl

theorem DirectionId.tryFrom_fails (raw : Nat) : FailsWith Dropped (DirectionId.tryFrom raw) := by
  rw [DirectionId.tryFrom.eq_def]
  split
  · exact .ok
  · exact .ok
  · exact dropped_error rfl

/-- No field of a DATA map is malformed: it is at worst of the wrong shape. -/
theorem dataFields_fails (fields : DataFields) (entries : List (Nat × Value)) :
    FailsWith Dropped (dataFields fields entries) := by
  induction entries generalizing fields with
  | nil => exact .ok
  | cons entry entries ih =>
      obtain ⟨key, value⟩ := entry
      unfold dataFields
      split
      · exact .bind (bytesValue_fails value) fun _ => .bind (.okOr rfl) fun _ => ih _
      · exact .bind (uintValue_fails value) fun _ => .bind (.ensure rfl) fun _ =>
          .bind (DirectionId.tryFrom_fails _) fun _ => ih _
      · exact .bind (uintValue_fails value) fun _ => ih _
      · exact .bind (bytesValue_fails value) fun _ => ih _
      · exact dropped_error rfl

/-- The part of `decode_payload` after the map has been validated. -/
def dataPayload (entries : List (Nat × Value)) : Result DataPayload := do
  ensure (entries.length = 4) .invalidDataPayload
  let fields ← dataFields {} entries
  let ciphertext ← okOr fields.ciphertext .invalidDataPayload
  ensure (aeadTagSize ≤ ciphertext.length) .invalidDataPayload
  let sessionId ← okOr fields.sessionId .invalidDataPayload
  let directionId ← okOr fields.directionId .invalidDataPayload
  let messageCounter ← okOr fields.counter .invalidDataPayload
  return { sessionId, directionId, messageCounter, ciphertext }

theorem dataPayload_fails (entries : List (Nat × Value)) : FailsWith Dropped (dataPayload entries) := by
  rw [dataPayload]
  exact .bind (.ensure rfl) fun _ => .bind (dataFields_fails {} entries) fun _ => .bind (.okOr rfl) fun _ =>
    .bind (.ensure rfl) fun _ => .bind (.okOr rfl) fun _ => .bind (.okOr rfl) fun _ =>
      .bind (.okOr rfl) fun _ => .ok

theorem u64TryFrom_eq_some {i : Int} {key : Nat} (h : u64TryFrom i = some key) :
    i = key ∧ key ≤ u64Max := by
  rw [u64TryFrom] at h
  split at h
  next hi =>
    obtain rfl := Option.some.inj h
    exact ⟨(Int.toNat_of_nonneg hi.1).symm, by omega⟩
  next => cases h

theorem collectEntries_eq_ok {keys : List Nat} {es : List (Value × Value)}
    {collected : List (Nat × Value)} (h : collectEntries keys es = .ok collected) :
    es = keyed collected := by
  induction es generalizing keys collected with
  | nil =>
      obtain rfl := Except.ok.inj h
      rfl
  | cons e es ih =>
      obtain ⟨key, value⟩ := e
      cases key with
      | integer i =>
          rw [collectEntries] at h
          cases hi : u64TryFrom i with
          | none =>
              rw [hi] at h
              cases h
          | some key =>
              rw [hi] at h
              dsimp only at h
              split at h
              next => cases h
              next =>
                obtain ⟨rest, hrest, h⟩ := bind_eq_ok.1 h
                obtain rfl := pure_eq_ok.1 h
                obtain ⟨rfl, -⟩ := u64TryFrom_eq_some hi
                rw [ih hrest]
                rfl
      | bytes | text | array | map => cases h

theorem collectEntries_nodup {keys : List Nat} {entries : List (Value × Value)}
    {collected : List (Nat × Value)} (h : collectEntries keys entries = .ok collected) :
    (collected.map Prod.fst).Nodup ∧ ∀ key ∈ keys, key ∉ collected.map Prod.fst := by
  induction entries generalizing keys collected with
  | nil =>
      obtain rfl := Except.ok.inj h
      exact ⟨List.nodup_nil, fun _ _ hk => absurd hk List.not_mem_nil⟩
  | cons entry entries ih =>
      obtain ⟨key, value⟩ := entry
      cases key with
      | integer i =>
          rw [collectEntries] at h
          cases hi : u64TryFrom i with
          | none =>
              rw [hi] at h
              cases h
          | some key =>
              rw [hi] at h
              dsimp only at h
              by_cases hk : key ∈ keys
              · rw [if_pos hk] at h
                cases h
              · rw [if_neg hk, bind_eq_ok] at h
                obtain ⟨rest, hrest, h⟩ := h
                obtain rfl := pure_eq_ok.1 h
                obtain ⟨hnodup, hfresh⟩ := ih hrest
                rw [List.map_cons]
                refine ⟨List.nodup_cons.2 ⟨hfresh key List.mem_cons_self, hnodup⟩, ?_⟩
                intro key' hk' hmem
                rcases List.mem_cons.1 hmem with rfl | hmem
                · exact hk hk'
                · exact hfresh key' (List.mem_cons_of_mem _ hk') hmem
      | bytes | text | array | map => cases h

theorem dataFields_keys {fields fields' : DataFields} {entries : List (Nat × Value)}
    (h : dataFields fields entries = .ok fields') : ∀ entry ∈ entries, entry.1 ≤ 3 := by
  induction entries generalizing fields with
  | nil =>
      intro entry he
      cases he
  | cons entry entries ih =>
      obtain ⟨key, value⟩ := entry
      intro entry he
      unfold dataFields at h
      split at h
      all_goals
        simp only [bind_eq_ok, reduceCtorEq] at h
      · obtain ⟨_, -, _, -, h⟩ := h
        rcases List.mem_cons.1 he with rfl | he
        · exact Nat.zero_le 3
        · exact ih h entry he
      · obtain ⟨_, -, _, -, _, -, h⟩ := h
        rcases List.mem_cons.1 he with rfl | he
        · exact (by decide : 1 ≤ 3)
        · exact ih h entry he
      · obtain ⟨_, -, h⟩ := h
        rcases List.mem_cons.1 he with rfl | he
        · exact (by decide : 2 ≤ 3)
        · exact ih h entry he
      · obtain ⟨_, -, h⟩ := h
        rcases List.mem_cons.1 he with rfl | he
        · exact le_rfl
        · exact ih h entry he

theorem uintValue_eq_ok {value : Value} {error : Error} {n : Nat} (h : uintValue value error = .ok n) :
    value = uint n ∧ n ≤ u64Max := by
  cases value with
  | integer i =>
      rw [uintValue, okOr_eq_ok, u64TryFrom] at h
      split at h
      next hi =>
          obtain rfl := Option.some.inj h
          have hmax : (u64Max : Int) = 18446744073709551615 := rfl
          have hn : i.toNat ≤ u64Max := by
            simp only [u64Max]
            omega
          rw [uint_eq (by simp only [u64Max] at hn; omega), Int.toNat_of_nonneg hi.1]
          exact ⟨rfl, hn⟩
      next => cases h
  | bytes | text | array | map => cases h

theorem bytesValue_eq_ok {value : Value} {bs : List UInt8} (h : bytesValue value = .ok bs) :
    value = .bytes bs := by
  cases value with
  | bytes b =>
      obtain rfl := Except.ok.inj h
      rfl
  | integer | text | array | map => cases h

theorem DirectionId.tryFrom_eq_ok {raw : Nat} {direction : DirectionId}
    (h : DirectionId.tryFrom raw = .ok direction) : raw = direction.toNat := by
  rw [tryFrom.eq_def] at h
  split at h
  · obtain rfl := Except.ok.inj h
    rfl
  · obtain rfl := Except.ok.inj h
    rfl
  · cases h

variable [Ciborium]

theorem decodePayload_eq (payload : List UInt8) :
    decodePayload payload = validateCborMapPayload payload >>= dataPayload := rfl

theorem validateCborMapPayload_ascending {payload : List UInt8} {entries : List (Nat × Value)}
    (h : validateCborMapPayload payload = .ok entries) : entries.Pairwise fun a b => a.1 < b.1 := by
  rw [validateCborMapPayload_eq] at h
  simp only [bind_eq_ok] at h
  obtain ⟨_, -, _, -, ⟨value, position⟩, -, _, -, h⟩ := h
  cases value with
  | map values =>
      simp only [canonicalMap, bind_eq_ok, pure_eq_ok] at h
      obtain ⟨collected, hcollect, _, -, _, -, rfl⟩ := h
      obtain ⟨hnodup, -⟩ := collectEntries_nodup hcollect
      have hsorted : (sortByKey collected).Pairwise fun a b => a.1 ≤ b.1 :=
        List.pairwise_insertionSort _ _
      have hdistinct : (sortByKey collected).Pairwise fun a b => a.1 ≠ b.1 := by
        rw [← List.pairwise_map]
        exact ((List.perm_insertionSort _ _).map Prod.fst).nodup_iff.2 hnodup
      exact (hsorted.and hdistinct).imp fun hboth => lt_of_le_of_ne hboth.1 hboth.2
  | integer | bytes | text | array => cases h

theorem validateCborMapPayload_encode (rfc : Ciborium.Rfc8949) (hreads : Ciborium.ReadsEncodable)
    {payload : List UInt8} {entries : List (Nat × Value)} (h : validateCborMapPayload payload = .ok entries) :
    payload.length ≤ maxFrameSize ∧ (Value.map (keyed entries)).Encodable ∧
      (Value.map (keyed entries)).encode = payload := by
  have hmax : maxFrameSize = 1048576 := rfl
  rw [validateCborMapPayload_eq] at h
  simp only [bind_eq_ok, ensure_eq_ok] at h
  obtain ⟨_, hsize, _, -, ⟨value, position⟩, hread, _, -, h⟩ := h
  have hread : Ciborium.fromReader payload = .ok (value, position) := by
    cases hfrom : Ciborium.fromReader payload with
    | ok read =>
        rw [hfrom] at hread
        exact congrArg Except.ok (Except.ok.inj hread)
    | error message =>
        rw [hfrom] at hread
        cases hread
  have hencodable := hreads.encodable payload value position (by omega) hread
  cases value with
  | map es =>
      simp only [canonicalMap, bind_eq_ok, ensure_eq_ok, pure_eq_ok] at h
      obtain ⟨collected, hcollect, canonical, hwrite, _, rfl, rfl⟩ := h
      obtain rfl := collectEntries_eq_ok hcollect
      have hperm : (keyed (sortByKey collected)).Perm (keyed collected) :=
        (List.perm_insertionSort _ _).map _
      have hsorted : (Value.map (keyed (sortByKey collected))).Encodable := by
        refine ⟨?_, entriesEncodable_iff.2 fun e he => ?_⟩
        · rw [hperm.length_eq]
          exact hencodable.1
        · exact entriesEncodable_iff.1 hencodable.2 e (hperm.mem_iff.1 he)
      rw [← keyed, rfc.writes _ hsorted, encodingError, Except.ok.injEq] at hwrite
      exact ⟨hsize, hsorted, hwrite⟩
  | integer | bytes | text | array => cases h

/-- A canonical CBOR map with exactly the keys 0 to 3, a 16-byte session id, a
direction, a 64-bit counter and room for a tag in the ciphertext. -/
def IsDataMap (payload : List UInt8) : Prop :=
  ∃ p : DataPayload, p.messageCounter ≤ u64Max ∧ aeadTagSize ≤ p.ciphertext.length ∧
    validateCborMapPayload payload = .ok p.fields

theorem decodePayload_of_fields {payload : List UInt8} {p : DataPayload}
    (hcounter : p.messageCounter ≤ u64Max) (htag : aeadTagSize ≤ p.ciphertext.length)
    (h : validateCborMapPayload payload = .ok p.fields) : decodePayload payload = .ok p := by
  have hdir : p.directionId.toNat ≤ u64Max := by cases p.directionId <;> decide
  have hdir' : p.directionId.toNat ≤ u32Max := by cases p.directionId <;> decide
  have hfields : dataFields {} p.fields = .ok
      ⟨some p.sessionId, some p.directionId, some p.messageCounter, some p.ciphertext⟩ := by
    simp only [DataPayload.fields, dataFields, bytes, bytesValue_bytes, ok_bind, Bytes.ofList?_val,
      okOr_some, uintValue_uint hdir, ensure_of hdir', DirectionId.tryFrom_toNat,
      uintValue_uint hcounter]
  rw [decodePayload, h, ok_bind, ensure_of (by simp [DataPayload.fields]), ok_bind, hfields]
  simp only [ok_bind, okOr_some, ensure_of htag]
  rfl

theorem decodePayload_eq_ok {payload : List UInt8} {p : DataPayload} :
    decodePayload payload = .ok p ↔ p.messageCounter ≤ u64Max ∧ aeadTagSize ≤ p.ciphertext.length ∧
      validateCborMapPayload payload = .ok p.fields := by
  constructor
  · intro h
    simp only [decodePayload, bind_eq_ok, ensure_eq_ok, pure_eq_ok, okOr_eq_ok] at h
    obtain ⟨entries, hv, _, hlen, fields, hf, ct, hct, _, htag, id, hid, dir, hdir, n, hn, rfl⟩ := h
    have hasc := validateCborMapPayload_ascending hv
    have hkeys := dataFields_keys hf
    obtain ⟨⟨k₀, v₀⟩, ⟨k₁, v₁⟩, ⟨k₂, v₂⟩, ⟨k₃, v₃⟩, rfl⟩ : ∃ a b c d, entries = [a, b, c, d] :=
      List.length_eq_four.1 hlen
    simp only [List.pairwise_cons, List.mem_cons, List.not_mem_nil, or_false, forall_eq_or_imp, forall_eq]
      at hasc hkeys
    obtain ⟨rfl, rfl, rfl, rfl⟩ : k₀ = 0 ∧ k₁ = 1 ∧ k₂ = 2 ∧ k₃ = 3 := by omega
    simp only [dataFields, bind_eq_ok, okOr_eq_ok, ensure_eq_ok, Except.ok.injEq] at hf
    obtain ⟨b₀, h₀, id', hid', raw, h₁, _, -, dir', hdir', n', h₂, ct', h₃, rfl⟩ := hf
    obtain rfl := Option.some.inj hct
    obtain rfl := Option.some.inj hid
    obtain rfl := Option.some.inj hdir
    obtain rfl := Option.some.inj hn
    obtain rfl := bytesValue_eq_ok h₀
    obtain rfl := bytesValue_eq_ok h₃
    obtain ⟨rfl, -⟩ := uintValue_eq_ok h₁
    obtain ⟨rfl, hmax⟩ := uintValue_eq_ok h₂
    obtain rfl := DirectionId.tryFrom_eq_ok hdir'
    have hval : b₀ = id'.val := by
      rw [Bytes.ofList?] at hid'
      split at hid'
      · exact congrArg Subtype.val (Option.some.inj hid')
      · cases hid'
    obtain rfl := hval
    exact ⟨hmax, htag, hv⟩
  · rintro ⟨hcounter, htag, hv⟩
    exact decodePayload_of_fields hcounter htag hv

/-- The DATA maps are the encodings of their fields within the limit of a frame. -/
theorem isDataMap_iff_encode (rfc : Ciborium.Rfc8949) (hreads : Ciborium.ReadsEncodable) {payload : List UInt8} :
    IsDataMap payload ↔ payload.length ≤ maxFrameSize ∧ ∃ p : DataPayload, p.messageCounter ≤ u64Max ∧
      aeadTagSize ≤ p.ciphertext.length ∧ (Value.map (keyed p.fields)).encode = payload := by
  constructor
  · rintro ⟨p, hcounter, htag, hmap⟩
    obtain ⟨hsize, -, hencode⟩ := validateCborMapPayload_encode rfc hreads hmap
    exact ⟨hsize, p, hcounter, htag, hencode⟩
  · rintro ⟨hsize, p, hcounter, htag, rfl⟩
    have hmax : maxFrameSize = 1048576 := rfl
    have hcipher : p.ciphertext.length ≤ (Value.map (keyed p.fields)).encode.length := by
      simp only [DataPayload.fields, keyed, List.map_cons, List.map_nil, Value.encode, encodeEntries,
        List.length_append]
      omega
    exact ⟨p, hcounter, htag, validateCborMapPayload_keyed rfc (p.fieldsOk (by omega)) hsize⟩

theorem isDataMap_iff {payload : List UInt8} : IsDataMap payload ↔ ∃ p, decodePayload payload = .ok p := by
  apply exists_congr
  intro p
  exact decodePayload_eq_ok.symm

/-- A payload that is no DATA map is malformed only if it is no canonical map
under unsigned keys. -/
theorem decodePayload_fails {payload : List UInt8} {error : Error}
    (h : decodePayload payload = .error error) :
    Malformed error ↔ ∃ error, validateCborMapPayload payload = .error error := by
  cases hv : validateCborMapPayload payload with
  | error error' =>
      rw [decodePayload, hv, error_bind] at h
      obtain rfl := Except.error.inj h
      exact iff_of_true (validateCborMapPayload_fails payload _ hv) ⟨_, rfl⟩
  | ok entries =>
      rw [decodePayload_eq, hv, ok_bind] at h
      have hd : isMalformed error = false := dataPayload_fails entries error h
      apply iff_of_false
      · intro hm
        rw [Malformed, hd] at hm
        cases hm
      · rintro ⟨error', he⟩
        cases he

end DataMap

section Frames

variable [Ciborium] [Primitives] {receiver : DataReceiver} {frame : Frame} {payload : DataPayload}

omit [Ciborium] in
theorem ReceivingChain.prepareMessageKey_fails (chain : ReceivingChain) (counter : Nat) :
    FailsWith Dropped (chain.prepareMessageKey counter).1 := by
  rw [prepareMessageKey]
  cases chain.skipped.lookup counter with
  | some key => exact .ok
  | none =>
      dsimp only
      split_ifs
      · exact dropped_error rfl
      · exact dropped_error rfl
      · exact dropped_error rfl
      · exact dropped_error rfl
      · exact .ok

theorem DataReceiver.decrypt_outcome (receiver : DataReceiver) (frame : Frame) :
    (∃ content, (receiver.decrypt frame).1 = .ok content) ∨
      (receiver.decrypt frame).2.replay = receiver.replay := by
  rw [decrypt]
  cases receiver.accepts frame with
  | error => exact .inr rfl
  | ok payload =>
      dsimp only
      generalize receiver.chain.prepareMessageKey payload.messageCounter = prepared
      obtain ⟨result, chain⟩ := prepared
      cases result with
      | error => exact .inr rfl
      | ok key =>
          dsimp only
          split
          · exact .inr rfl
          · split
            · exact .inr rfl
            · split
              · exact .inr rfl
              · exact .inl ⟨_, rfl⟩

theorem DataReceiver.decrypt_replay {error : Error} (h : (receiver.decrypt frame).1 = .error error) :
    (receiver.decrypt frame).2.replay = receiver.replay := by
  rcases receiver.decrypt_outcome frame with ⟨content, hok⟩ | hreplay
  · cases h.symm.trans hok
  · exact hreplay

/-- The session, direction, replay, key-window or AEAD check of a DATA map fails. -/
def DataReceiver.Refuses (receiver : DataReceiver) (payload : DataPayload) : Prop :=
  payload.sessionId ≠ receiver.sessionId ∨ payload.directionId ≠ receiver.direction ∨
    receiver.replay.classify payload.messageCounter ≠ .new ∨
    (∃ error, (receiver.chain.prepareMessageKey payload.messageCounter).1 = .error error) ∨
    ∃ key aad error, (receiver.chain.prepareMessageKey payload.messageCounter).1 = .ok key ∧
      dataAad receiver.sessionId payload.directionId payload.messageCounter = .ok aad ∧
      decryptMessage key (messageNonce payload.directionId payload.messageCounter) aad payload.ciphertext =
        .error error

omit [Ciborium] in
theorem decryptMessage_fails (key : Bytes 32) (nonce : Bytes 12) (aad ciphertext : List UInt8) :
    FailsWith Dropped (decryptMessage key nonce aad ciphertext) :=
  .okOr rfl

omit [Primitives] in
theorem DataReceiver.accepts_unaccepted (ht : frame.messageType = .data)
    (hd : decodePayload frame.payload = .ok payload)
    (hother : payload.sessionId ≠ receiver.sessionId ∨ payload.directionId ≠ receiver.direction ∨
      receiver.replay.classify payload.messageCounter ≠ .new) :
    ∃ error, receiver.accepts frame = .error error ∧ Dropped error := by
  rw [accepts, ensure_of ht, ok_bind, hd, ok_bind]
  by_cases hs : payload.sessionId = receiver.sessionId
  · rw [ensure_of hs, ok_bind]
    by_cases hr : payload.directionId = receiver.direction
    · rw [ensure_of hr, ok_bind]
      have hc := (hother.resolve_left (not_not.2 hs)).resolve_left (not_not.2 hr)
      rw [ensure_of_not hc]
      exact ⟨_, rfl, rfl⟩
    · rw [ensure_of_not hr]
      exact ⟨_, rfl, rfl⟩
  · rw [ensure_of_not hs]
    exact ⟨_, rfl, rfl⟩

theorem DataReceiver.Refuses.decrypt (ht : frame.messageType = .data)
    (hd : decodePayload frame.payload = .ok payload) (h : receiver.Refuses payload) :
    ∃ error, (receiver.decrypt frame).1 = .error error ∧ Dropped error := by
  by_cases hother : payload.sessionId ≠ receiver.sessionId ∨ payload.directionId ≠ receiver.direction ∨
      receiver.replay.classify payload.messageCounter ≠ .new
  · obtain ⟨error, he, hdrop⟩ := DataReceiver.accepts_unaccepted ht hd hother
    rw [DataReceiver.decrypt_unaccepted he]
    exact ⟨error, rfl, hdrop⟩
  · simp only [not_or, not_not] at hother
    obtain ⟨hs, hr, hnew⟩ := hother
    have ha := DataReceiver.accepts_isOk ht hd hs hr hnew
    rw [DataReceiver.decrypt, ha]
    dsimp only
    rcases h with hne | hne | hne | ⟨error, hp⟩ | ⟨key, aad, error, hp, haad, hopen⟩
    · exact absurd hs hne
    · exact absurd hr hne
    · exact absurd hnew hne
    · have hdrop := ReceivingChain.prepareMessageKey_fails _ _ error hp
      generalize receiver.chain.prepareMessageKey payload.messageCounter = prepared at hp ⊢
      obtain ⟨result, chain⟩ := prepared
      obtain rfl := hp
      exact ⟨error, rfl, hdrop⟩
    · have hdrop := decryptMessage_fails _ _ _ _ error hopen
      generalize receiver.chain.prepareMessageKey payload.messageCounter = prepared at hp ⊢
      obtain ⟨result, chain⟩ := prepared
      obtain rfl := hp
      dsimp only
      rw [haad, ok_bind, hopen, error_bind]
      exact ⟨error, rfl, hdrop⟩

theorem DataReceiver.decrypt_undecoded (ht : frame.messageType = .data) {error : Error}
    (hd : decodePayload frame.payload = .error error) :
    receiver.decrypt frame = (.error error, receiver) := by
  apply decrypt_unaccepted
  rw [accepts, ensure_of ht, ok_bind, hd, error_bind]

end Frames

section Engine

variable [Ciborium] [Primitives] {e : Engine} {frame : Frame}

def Session.face (session : Session) : SessionId × PeerIdentity × DataSender × ReplayWindow :=
  (session.id, session.peer, session.sender, session.receiver.replay)

/-- A DATA frame is told apart as the protocol says: what is no DATA map ends
the session, what fails a check against both sessions is only rejected. -/
structure Engine.Classifies (e : Engine) (frame : Frame) : Prop where
  ends : ¬ IsDataMap frame.payload →
    (e.handle (.frameReceived frame)).1.phase = .closed ∧
      .notify (.closed .protocolError) ∈ (e.handle (.frameReceived frame)).2
  drops : ∀ payload active, decodePayload frame.payload = .ok payload → e.active = some active →
    active.receiver.Refuses payload →
    (∀ draining, e.draining = some draining → ∃ error, (draining.receiver.decrypt frame).1 = .error error) →
    (e.handle (.frameReceived frame)).2 = [.notify .dataRejected] ∧
      (e.handle (.frameReceived frame)).1.phase = .established ∧
      (e.handle (.frameReceived frame)).1.active.map Session.face = e.active.map Session.face ∧
      (e.handle (.frameReceived frame)).1.draining.map Session.face = e.draining.map Session.face

def Engine.refused (e : Engine) (active : Session) (frame : Frame) : Engine :=
  { e with
    active := some { active with receiver := (active.receiver.decrypt frame).2 }
    draining := e.draining.map fun draining =>
      { draining with receiver := (draining.receiver.decrypt frame).2 } }

theorem Ctx.onData_refused {c : Ctx} {active : Session} {error : Error} (ha : c.self.active = some active)
    (hd : (active.receiver.decrypt frame).1 = .error error)
    (hdrain : ∀ draining, c.self.draining = some draining →
      ∃ error, (draining.receiver.decrypt frame).1 = .error error) :
    c.onData frame =
      if isMalformed error then
        (c.update (·.refused active frame)).terminate .protocolError (some .protocolError)
      else (c.update (·.refused active frame)).push (.notify .dataRejected) := by
  obtain ⟨self, out⟩ := c
  rw [Ctx.onData, ha]
  dsimp only at hdrain ⊢
  rw [hd]
  dsimp only
  cases hdr : self.draining with
  | none =>
      simp only [Ctx.update, Engine.refused, hdr, Option.map_none]
  | some draining =>
      obtain ⟨error', he⟩ := hdrain draining hdr
      simp only [Ctx.update, Engine.refused, hdr, Option.map_some, he]
      rfl

theorem Engine.handle_data (hp : e.phase = .established) (ht : frame.messageType = .data) :
    e.handle (.frameReceived frame) =
      (((⟨e, []⟩ : Ctx).onData frame).self, ((⟨e, []⟩ : Ctx).onData frame).out) := by
  have hne : e.phase ≠ .closed := by
    rw [hp]
    decide
  rw [Engine.handle, if_neg hne]
  dsimp only
  rw [Ctx.onFrame, hp]
  dsimp only
  rw [ht]

omit [Primitives] in
theorem Ctx.terminate_closed (c : Ctx) (cause : CloseCause) (reason : Option CloseReason) :
    (c.terminate cause reason).self.phase = .closed ∧
      .notify (.closed cause) ∈ (c.terminate cause reason).out := by
  constructor
  · exact terminate_phase c cause reason
  · have hout := congrArg Ctx.out (view_terminate c cause reason)
    have hmem : .notify (.closed cause) ∈ (c.terminate cause reason).view.out := by
      rw [hout]
      exact List.mem_append_right _ (List.mem_append_right _ List.mem_cons_self)
    exact List.mem_of_mem_filter hmem

/-- The protocol's classification holds exactly when a payload of the wrong
shape is not even accepted as a map; the right shape is the encoding of the four
fields. -/
theorem data_frame_classified_iff (role : HelloRole) (identity : IdentityKeypair) (entropy : Entropy)
    (limit : Nat) (inputs : List Input) (frame : Frame)
    (established : (final Engine.handle (Engine.configured role identity entropy limit) inputs).phase =
      .established)
    (data : frame.messageType = .data) :
    ((final Engine.handle (Engine.configured role identity entropy limit) inputs).Classifies frame ↔
      IsDataMap frame.payload ∨ ∃ error, validateCborMapPayload frame.payload = .error error) ∧
    (Ciborium.Rfc8949 → Ciborium.ReadsEncodable → (IsDataMap frame.payload ↔
      frame.payload.length ≤ maxFrameSize ∧ ∃ p : DataPayload, p.messageCounter ≤ u64Max ∧
        aeadTagSize ≤ p.ciphertext.length ∧ (Value.map (keyed p.fields)).encode = frame.payload)) := by
  refine ⟨?_, fun rfc hreads => isDataMap_iff_encode rfc hreads⟩
  have hfits := reachable_fits role identity entropy limit inputs
  generalize final Engine.handle (Engine.configured role identity entropy limit) inputs = e
    at hfits established ⊢
  obtain ⟨active, ha⟩ := Option.isSome_iff_exists.1 (hfits.active_iff.2 established)
  have hhandle := Engine.handle_data established data
  -- a payload that does not decode is refused by both sessions
  have hundecoded : ¬ IsDataMap frame.payload → ∃ error, decodePayload frame.payload = .error error ∧
      (⟨e, []⟩ : Ctx).onData frame =
        if isMalformed error then
          ((⟨e, []⟩ : Ctx).update (·.refused active frame)).terminate .protocolError (some .protocolError)
        else ((⟨e, []⟩ : Ctx).update (·.refused active frame)).push (.notify .dataRejected) := by
    intro hno
    cases hd : decodePayload frame.payload with
    | ok payload => exact absurd (isDataMap_iff.2 ⟨payload, hd⟩) hno
    | error error =>
        refine ⟨error, rfl, Ctx.onData_refused ha ?_ ?_⟩
        · rw [DataReceiver.decrypt_undecoded data hd]
        · intro draining _
          rw [DataReceiver.decrypt_undecoded data hd]
          exact ⟨error, rfl⟩
  constructor
  · intro h
    by_cases hmap : IsDataMap frame.payload
    · exact .inl hmap
    · right
      obtain ⟨error, hd, hout⟩ := hundecoded hmap
      apply (decodePayload_fails hd).1
      by_contra (hdrop : ¬ isMalformed error = true)
      obtain ⟨hclosed, -⟩ := h.ends hmap
      rw [hhandle, hout, if_neg hdrop] at hclosed
      have hstill : e.phase = .closed := hclosed
      rw [established] at hstill
      cases hstill
  · intro h
    constructor
    · intro hno
      obtain ⟨error, hd, hout⟩ := hundecoded hno
      have hm : isMalformed error = true := (decodePayload_fails hd).2 (h.resolve_left hno)
      rw [hhandle, hout, if_pos hm]
      dsimp only
      exact Ctx.terminate_closed _ _ _
    · intro payload active' hd ha' hrefuses hdrain
      obtain rfl := Option.some.inj (ha.symm.trans ha')
      obtain ⟨error, he, (hdrop : isMalformed error = false)⟩ := hrefuses.decrypt data hd
      have hno : ¬ isMalformed error = true := by
        rw [hdrop]
        decide
      rw [hhandle, Ctx.onData_refused ha he hdrain, if_neg hno]
      refine ⟨rfl, established, ?_, ?_⟩
      · have hface : (some { active with receiver := (active.receiver.decrypt frame).2 }).map Session.face =
            some active.face := by
          rw [Option.map_some, Session.face, Session.face, DataReceiver.decrypt_replay he]
        rw [ha]
        exact hface
      · change (e.draining.map _).map Session.face = e.draining.map Session.face
        cases hdr : e.draining with
        | none => rfl
        | some draining =>
            obtain ⟨error', he'⟩ := hdrain draining hdr
            rw [Option.map_some, Option.map_some, Option.map_some, Session.face, Session.face,
              DataReceiver.decrypt_replay he']

end Engine

end Ruxmsg

namespace Ruxmsg

open Library.Machine Sample

def emptyMap : Frame := ⟨.v1, .data, [0xA0]⟩

theorem dialer_established : (final Engine.handle dialer handshake.leftInputs).phase = .established := by
  decide +kernel

theorem empty_map_is_only_rejected :
    (final Engine.handle dialer handshake.leftInputs).phase = .established ∧
    ¬ IsDataMap emptyMap.payload ∧
    ((final Engine.handle dialer handshake.leftInputs).handle (.frameReceived emptyMap)).2 =
      [.notify .dataRejected] ∧
    ((final Engine.handle dialer handshake.leftInputs).handle (.frameReceived emptyMap)).1.phase =
      .established := by
  refine ⟨dialer_established, ?_, ?_, ?_⟩
  · intro hmap
    obtain ⟨p, hp⟩ := isDataMap_iff.1 hmap
    have herror : (decodePayload emptyMap.payload).isOk = false := by decide +kernel
    rw [hp] at herror
    cases herror
  · decide +kernel
  · decide +kernel

/-- The empty map breaks the classification; what is no map at all and a genuine
message do not. -/
theorem data_frame_classified_iff_sample :
    ¬ (final Engine.handle dialer handshake.leftInputs).Classifies emptyMap ∧
      (final Engine.handle dialer handshake.leftInputs).Classifies ⟨.v1, .data, [0]⟩ ∧
      (final Engine.handle dialer handshake.leftInputs).Classifies said := by
  have hiff (frame : Frame) (data : frame.messageType = .data) := (data_frame_classified_iff .initiator
    leftIdentity (entropy 100) rekeyMessageLimit handshake.leftInputs frame dialer_established data).1
  obtain ⟨hempty, hmap, hnumber, htype, hsaid⟩ : (decodePayload emptyMap.payload).isOk = false ∧
      (validateCborMapPayload emptyMap.payload).isOk = true ∧ (validateCborMapPayload [0]).isOk = false ∧
      said.messageType = .data ∧ (decodePayload said.payload).isOk = true := by
    decide +kernel
  refine ⟨?_, (hiff _ rfl).2 (.inr (exists_error hnumber)), (hiff said htype).2 (.inl ?_)⟩
  · intro hclassifies
    rcases (hiff emptyMap rfl).1 hclassifies with hdata | ⟨error, herror⟩
    · obtain ⟨p, hp⟩ := isDataMap_iff.1 hdata
      rw [hp] at hempty
      cases hempty
    · rw [herror] at hmap
      cases hmap
  · exact isDataMap_iff.2 (exists_ok hsaid)

end Ruxmsg

import Ruxmsg.Forms
import Ruxmsg.Scan
import Ruxmsg.Library.CborOrder

namespace Ruxmsg

open Library.Cbor

theorem keys_of_encodable {entries : List (Nat × Value)}
    (h : (Value.map (keyed entries)).Encodable) : ∀ entry ∈ entries, entry.1 < 2 ^ 64 := by
  intro entry hentry
  have hmem : ((.integer entry.1, entry.2) : Value × Value) ∈ keyed entries :=
    List.mem_map.2 ⟨entry, hentry, rfl⟩
  have hkey := (entriesEncodable_iff.1 h.2 _ hmem).1.2
  omega

theorem keyed_pairwise_iff {entries : List (Nat × Value)} (hkeys : ∀ entry ∈ entries, entry.1 < 2 ^ 64) :
    (keyed entries).Pairwise KeyLt ↔ entries.Pairwise fun a b => a.1 < b.1 := by
  rw [keyed, List.pairwise_map]
  apply List.Pairwise.iff_of_mem
  intro a b ha hb
  exact encode_lt_iff (hkeys a ha) (hkeys b hb)

section Validation

variable [Ciborium]

/-- Map validation checks the size, the structure, the text strings, and the
keys of the outermost map. -/
theorem validateCborMapPayload_eq_ok (rfc : Ciborium.Rfc8949) (hreads : Ciborium.ReadsEncodable)
    {payload : List UInt8} {entries : List (Nat × Value)} :
    validateCborMapPayload payload = .ok entries ↔ payload.length ≤ maxFrameSize ∧
      validateCborStructure payload = .ok () ∧ decode payload = some (.map (keyed entries), []) ∧
        entries.Pairwise fun a b => a.1 < b.1 := by
  have hmax : maxFrameSize = 1048576 := rfl
  constructor
  · intro h
    have hasc := validateCborMapPayload_ascending h
    obtain ⟨hsize, hencodable, hencode⟩ := validateCborMapPayload_encode rfc hreads h
    rw [validateCborMapPayload_eq] at h
    simp only [bind_eq_ok] at h
    obtain ⟨_, -, _, hscan, -⟩ := h
    refine ⟨hsize, hscan, ?_, hasc⟩
    rw [← hencode, ← List.append_nil (Value.encode _), decode_encode_append _ hencodable]
  · rintro ⟨hsize, hscan, hdecode, hasc⟩
    have hitem := (validateCborStructure_eq_ok (hsize.trans (by decide))).1 hscan
    obtain ⟨-, hencode, hencodable, hdepth⟩ := decode_item hitem (by omega) hdecode
    have hread := rfc.reads _ hencodable (hdepth.trans (by decide)) []
    rw [List.append_nil, hencode] at hread
    have hkeys : ∀ entry ∈ entries, entry.1 ≤ u64Max := fun entry hentry =>
      Nat.le_of_lt_succ (keys_of_encodable hencodable entry hentry)
    have hwrite : encodingError (Ciborium.intoWriter (.map (keyed entries))) = .ok payload := by
      rw [rfc.writes _ hencodable, hencode]
      rfl
    have hcanonical : canonicalMap payload (.map (keyed entries)) = .ok entries := by
      rw [canonicalMap, collectEntries_keyed entries [] hasc hkeys (by simp), ok_bind,
        sortByKey_of_ascending hasc, ← keyed, hwrite, ok_bind, ensure_of rfl]
      rfl
    rw [validateCborMapPayload_eq, ensure_of hsize, ok_bind, hscan, ok_bind, hread, encodingError,
      ok_bind]
    dsimp only
    rw [ensure_of rfl, ok_bind, hcanonical]

/-- The payloads that map validation is to accept: within the limit on size,
of the structure that the scan admits, with text strings that are UTF-8, and
one map under unsigned keys, deterministic at every level. -/
structure DeterministicMap (payload : List UInt8) (entries : List (Nat × Value)) : Prop where
  size : payload.length ≤ maxFrameSize
  scanned : validateCborStructure payload = .ok ()
  denotes : decode payload = some (.map (keyed entries), [])
  deterministic : (Value.map (keyed entries)).Deterministic

/-- In order in its outermost map, but not in some map inside it. -/
def LooseInside (payload : List UInt8) : Prop :=
  ∃ entries, payload.length ≤ maxFrameSize ∧ validateCborStructure payload = .ok () ∧
    decode payload = some (.map (keyed entries), []) ∧ (keyed entries).Pairwise KeyLt ∧
      ¬ EntriesDeterministic (keyed entries)

omit [Ciborium] in
theorem keys_of_denotes {payload : List UInt8} {entries : List (Nat × Value)}
    (hsize : payload.length ≤ maxFrameSize) (hscan : validateCborStructure payload = .ok ())
    (hdecode : decode payload = some (.map (keyed entries), [])) :
    ∀ entry ∈ entries, entry.1 < 2 ^ 64 := by
  have hmax : maxFrameSize = 1048576 := rfl
  have hitem := (validateCborStructure_eq_ok (hsize.trans (by decide))).1 hscan
  exact keys_of_encodable (decode_item hitem (by omega) hdecode).encodable

theorem DeterministicMap.accepted (rfc : Ciborium.Rfc8949) (hreads : Ciborium.ReadsEncodable)
    {payload : List UInt8} {entries : List (Nat × Value)} (h : DeterministicMap payload entries) :
    validateCborMapPayload payload = .ok entries := by
  obtain ⟨hsize, hscan, hdecode, hasc, -⟩ := h
  rw [keyed_pairwise_iff (keys_of_denotes hsize hscan hdecode)] at hasc
  exact (validateCborMapPayload_eq_ok rfc hreads).2 ⟨hsize, hscan, hdecode, hasc⟩

/-- What is accepted is deterministic, or loose inside. -/
theorem deterministic_or_loose (rfc : Ciborium.Rfc8949) (hreads : Ciborium.ReadsEncodable)
    {payload : List UInt8} {entries : List (Nat × Value)}
    (h : validateCborMapPayload payload = .ok entries) :
    DeterministicMap payload entries ∨ LooseInside payload := by
  obtain ⟨hsize, hscan, hdecode, hasc⟩ := (validateCborMapPayload_eq_ok rfc hreads).1 h
  rw [← keyed_pairwise_iff (keys_of_denotes hsize hscan hdecode)] at hasc
  by_cases hinside : EntriesDeterministic (keyed entries)
  · exact .inl ⟨hsize, hscan, hdecode, hasc, hinside⟩
  · exact .inr ⟨entries, hsize, hscan, hdecode, hasc, hinside⟩

omit [Ciborium] in
theorem DeterministicMap.unique {payload payload' : List UInt8} {entries entries' : List (Nat × Value)}
    (h : DeterministicMap payload entries) (h' : DeterministicMap payload' entries')
    (hdata : (Value.map (keyed entries)).data = (Value.map (keyed entries')).data) :
    payload = payload' := by
  have hmax : maxFrameSize = 1048576 := rfl
  have hencode {payload : List UInt8} {entries : List (Nat × Value)}
      (h : DeterministicMap payload entries) : (Value.map (keyed entries)).encode = payload := by
    have hsize := h.size
    have hitem := (validateCborStructure_eq_ok (hsize.trans (by decide))).1 h.scanned
    exact (decode_item hitem (by omega) h.denotes).encode_eq
  rw [data_of_deterministic _ h.deterministic, data_of_deterministic _ h'.deterministic] at hdata
  rw [← hencode h, hdata, hencode h']

/-- Map validation accepts deterministic maps only, except for payloads that
are loose inside. -/
theorem map_validation_deterministic_iff (rfc : Ciborium.Rfc8949) (hreads : Ciborium.ReadsEncodable) :
    (∀ payload, (∀ entries, validateCborMapPayload payload = .ok entries ↔
      DeterministicMap payload entries) ↔ ¬ LooseInside payload) ∧
    ∀ payload payload' entries entries', ¬ LooseInside payload → ¬ LooseInside payload' →
      validateCborMapPayload payload = .ok entries → validateCborMapPayload payload' = .ok entries' →
        (Value.map (keyed entries)).data = (Value.map (keyed entries')).data → payload = payload' := by
  constructor
  · intro payload
    constructor
    · rintro h ⟨entries, hsize, hscan, hdecode, hasc, hinside⟩
      rw [keyed_pairwise_iff (keys_of_denotes hsize hscan hdecode)] at hasc
      have haccepted := (validateCborMapPayload_eq_ok rfc hreads).2 ⟨hsize, hscan, hdecode, hasc⟩
      exact hinside ((h entries).1 haccepted).deterministic.2
    · intro hstrict entries
      constructor
      · intro h
        exact (deterministic_or_loose rfc hreads h).resolve_right hstrict
      · intro h
        exact h.accepted rfc hreads
  · intro payload payload' entries entries' hstrict hstrict' h h' hdata
    exact ((deterministic_or_loose rfc hreads h).resolve_right hstrict).unique
      ((deterministic_or_loose rfc hreads h').resolve_right hstrict') hdata

end Validation

theorem Ciborium.reference_readsEncodable : @Ciborium.ReadsEncodable Ciborium.reference := by
  refine @Ciborium.ReadsEncodable.mk Ciborium.reference ?_
  intro bs v n hlen h
  unfold Ciborium.fromReader Ciborium.reference at h
  dsimp only at h
  split at h
  next v' rest hdecode =>
    obtain ⟨rfl, -⟩ := Prod.mk.inj (Except.ok.inj h)
    exact decode_encodable hlen hdecode
  next => cases h

open Sample in
/-- Two payloads for the same data are accepted: only the outermost of the maps
is checked for its order. -/
theorem nested_maps_are_not_checked : ∃ entries entries',
    validateCborMapPayload [161, 0, 162, 1, 0, 0, 0] = .ok entries ∧
    validateCborMapPayload [161, 0, 162, 0, 0, 1, 0] = .ok entries' ∧
    ¬ DeterministicMap [161, 0, 162, 1, 0, 0, 0] entries ∧
    (Value.map (keyed entries)).data = (Value.map (keyed entries')).data := by
  have haccepted := @validateCborMapPayload_eq_ok _ Ciborium.reference_rfc8949
    Ciborium.reference_readsEncodable
  refine ⟨[(0, .map [(.integer 1, .integer 0), (.integer 0, .integer 0)])],
    [(0, .map [(.integer 0, .integer 0), (.integer 1, .integer 0)])], ?_, ?_, ?_, ?_⟩
  · exact haccepted.2 ⟨by decide, by decide, by rfl, by simp⟩
  · exact haccepted.2 ⟨by decide, by decide, by rfl, by simp⟩
  · intro h
    exact absurd h.deterministic.2.2.1.1 (by decide)
  · rfl

open Sample in
theorem map_validation_deterministic_iff_sample : ¬ LooseInside [161, 0, 162, 0, 0, 1, 0] ∧
    ∀ entries, validateCborMapPayload [161, 0, 162, 0, 0, 1, 0] = .ok entries ↔
      DeterministicMap [161, 0, 162, 0, 0, 1, 0] entries := by
  have hstrict : ¬ LooseInside [161, 0, 162, 0, 0, 1, 0] := by
    rintro ⟨entries, -, -, hdecode, -, hinside⟩
    have hread : decode [161, 0, 162, 0, 0, 1, 0] = some (.map [(.integer 0, .map
        [(.integer 0, .integer 0), (.integer 1, .integer 0)])], []) := rfl
    rw [hread, Option.some.injEq, Prod.mk.injEq, Value.map.injEq] at hdecode
    rw [← hdecode.1] at hinside
    exact hinside ⟨trivial, ⟨by decide, trivial, trivial, trivial, trivial, trivial⟩, trivial⟩
  exact ⟨hstrict, ((map_validation_deterministic_iff Ciborium.reference_rfc8949
    Ciborium.reference_readsEncodable).1 _).2 hstrict⟩

end Ruxmsg

import Ruxmsg.Handshake
import Ruxmsg.Close
import Mathlib.Data.List.TakeWhile
import Mathlib.Data.List.Perm.Subperm

namespace Ruxmsg

open Library.Cbor

theorem foldl_shift_eq_ofBytes (bs : List UInt8) :
    bs.foldl (fun value byte => (value <<< 8) ||| byte.toNat) 0 = ofBytes bs := by
  have hstep : (fun (value : Nat) (byte : UInt8) => (value <<< 8) ||| byte.toNat) =
      fun n b => n * 256 + b.toNat := by
    funext value byte
    have hb : byte.toNat < 2 ^ 8 := byte.toNat_lt
    rw [← Nat.shiftLeft_add_eq_or_of_lt hb, Nat.shiftLeft_eq]
  rw [hstep, ofBytes]

/-- The argument of a shortest head is read with as many bytes as it has. -/
theorem readCborArgument_bytes (k n info position : Nat) (rest : List UInt8)
    (hwidth : (info = 24 ∧ k = 1 ∧ 24 ≤ n) ∨ (info = 25 ∧ k = 2 ∧ 255 < n) ∨
      (info = 26 ∧ k = 4 ∧ 65535 < n) ∨ (info = 27 ∧ k = 8 ∧ u32Max < n))
    (hn : n < 256 ^ k) (hp : position + k ≤ u64Max) :
    readCborArgument position (beBytes k n ++ rest) info = .ok (n, position + k, rest) := by
  have hl := length_beBytes k n
  have hover : ¬ u64Max < position + k := by omega
  have hshort : ¬ (beBytes k n ++ rest).length < k := by simp [hl]
  have hvalue : ((beBytes k n ++ rest).take k).foldl
      (fun value byte => (value <<< 8) ||| byte.toNat) 0 = n := by
    rw [List.take_left' hl, foldl_shift_eq_ofBytes, ofBytes_beBytes k n hn]
  have hdrop : (beBytes k n ++ rest).drop k = rest := List.drop_left' hl
  rw [readCborArgument]
  obtain ⟨rfl, rfl, h⟩ | ⟨rfl, rfl, h⟩ | ⟨rfl, rfl, h⟩ | ⟨rfl, rfl, h⟩ := hwidth <;>
  · rw [if_neg (by decide)]
    simp only [ok_bind, hover, hshort, if_false, hvalue, hdrop, h, decide_true, if_true]

theorem readCborArgument_head (major n position : Nat) (rest : List UInt8) (hm : major < 8)
    (hn : n < 2 ^ 64) (hp : position + (head major n).length ≤ u64Max) :
    ∃ b tail, head major n = b :: tail ∧ b.toNat >>> 5 = major ∧
      readCborArgument (position + 1) (tail ++ rest) (b.toNat &&& 31) =
        .ok (n, position + (head major n).length, rest) := by
  have hb (info : Nat) (hi : info < 32) :
      (UInt8.ofNat (major * 32 + info)).toNat = major * 32 + info := by
    simp only [UInt8.toNat_ofNat']
    omega
  have hmajor (info : Nat) (hi : info < 32) : (major * 32 + info) >>> 5 = major := by
    rw [Nat.shiftRight_eq_div_pow]
    omega
  have hinfo (info : Nat) (hi : info < 32) : (major * 32 + info) &&& 31 = info := by
    have h31 : (31 : Nat) = 2 ^ 5 - 1 := rfl
    rw [h31, Nat.and_two_pow_sub_one_eq_mod]
    omega
  have hlen := length_head major n
  rw [head] at hp hlen ⊢
  split
  next h =>
    refine ⟨_, _, rfl, by rw [hb n (by omega), hmajor n (by omega)], ?_⟩
    rw [hb n (by omega), hinfo n (by omega), readCborArgument, if_pos (by omega)]
    rfl
  next h24 =>
    simp only [h24, if_false] at hp
    split
    next h =>
      simp only [h, if_true, List.length_cons, length_beBytes] at hp
      refine ⟨_, _, rfl, by rw [hb 24 (by omega), hmajor 24 (by omega)], ?_⟩
      rw [hb 24 (by omega), hinfo 24 (by omega), readCborArgument_bytes 1 n _ _ _
        (.inl ⟨rfl, rfl, by omega⟩) (by omega) (by omega)]
      simp [length_beBytes]
    next h256 =>
      simp only [h256, if_false] at hp
      split
      next h =>
        simp only [h, if_true, List.length_cons, length_beBytes] at hp
        refine ⟨_, _, rfl, by rw [hb 25 (by omega), hmajor 25 (by omega)], ?_⟩
        rw [hb 25 (by omega), hinfo 25 (by omega), readCborArgument_bytes 2 n _ _ _
          (.inr (.inl ⟨rfl, rfl, by omega⟩)) (by omega) (by omega)]
        simp [length_beBytes]
      next h65536 =>
        simp only [h65536, if_false] at hp
        split
        next h =>
          simp only [h, if_true, List.length_cons, length_beBytes] at hp
          refine ⟨_, _, rfl, by rw [hb 26 (by omega), hmajor 26 (by omega)], ?_⟩
          rw [hb 26 (by omega), hinfo 26 (by omega), readCborArgument_bytes 4 n _ _ _
            (.inr (.inr (.inl ⟨rfl, rfl, by omega⟩))) (by omega) (by omega)]
          simp [length_beBytes]
        next h =>
          simp only [h, if_false, List.length_cons, length_beBytes] at hp
          refine ⟨_, _, rfl, by rw [hb 27 (by omega), hmajor 27 (by omega)], ?_⟩
          rw [hb 27 (by omega), hinfo 27 (by omega), readCborArgument_bytes 8 n _ _ _
            (.inr (.inr (.inr ⟨rfl, rfl, by simp only [u32Max]; omega⟩))) (by omega) (by omega)]
          simp [length_beBytes]

def Scalar : Value → Prop
  | .integer _ | .bytes _ | .text _ => True
  | .array _ | .map _ => False

theorem scanHead_string (major position containers : Nat) (content rest : List UInt8)
    (hm : major = 2 ∨ major = 3) (hn : content.length < 2 ^ 64)
    (hp : position + (head major content.length ++ content).length ≤ u64Max) :
    scanHead position (head major content.length ++ (content ++ rest)) containers =
      .ok (position + (head major content.length ++ content).length, rest, 0) := by
  rw [List.length_append] at hp ⊢
  obtain ⟨b, tail, hhead, hmajor, hread⟩ := readCborArgument_head major content.length position
    (content ++ rest) (by omega) hn (by omega)
  rw [hhead, List.cons_append, scanHead]
  dsimp only
  rw [hread, hmajor, ok_bind]
  dsimp only
  have hover : ¬ u64Max < position + (head major content.length).length + content.length := by omega
  have hshort : ¬ (content ++ rest).length < content.length := by simp
  rw [if_neg (by omega), if_pos (by omega), if_neg hover, if_neg hshort, List.drop_left, hhead]
  simp only [List.length_cons, Except.ok.injEq, Prod.mk.injEq, and_true]
  omega

theorem scanHead_integer (major n position containers : Nat) (rest : List UInt8) (hm : major ≤ 1)
    (hn : n < 2 ^ 64) (hp : position + (head major n).length ≤ u64Max) :
    scanHead position (head major n ++ rest) containers =
      .ok (position + (head major n).length, rest, 0) := by
  obtain ⟨b, tail, hhead, hmajor, hread⟩ :=
    readCborArgument_head major n position rest (by omega) hn hp
  rw [hhead, List.cons_append, scanHead]
  dsimp only
  rw [hread, hmajor, ok_bind, hhead]
  dsimp only
  rw [if_pos hm]

theorem scanHead_scalar (v : Value) (hs : Scalar v) (hv : v.Encodable) (position containers : Nat)
    (rest : List UInt8) (hp : position + v.encode.length ≤ u64Max) :
    scanHead position (v.encode ++ rest) containers = .ok (position + v.encode.length, rest, 0) := by
  cases v with
  | integer i =>
      obtain ⟨h1, h2⟩ := hv
      rw [Value.encode] at hp ⊢
      split
      next h =>
        rw [if_pos h] at hp
        exact scanHead_integer 0 _ _ _ _ (by omega) (by omega) hp
      next h =>
        rw [if_neg h] at hp
        exact scanHead_integer 1 _ _ _ _ (by omega) (by omega) hp
  | bytes b =>
      rw [Value.encode] at hp ⊢
      rw [List.append_assoc]
      exact scanHead_string 2 _ _ _ _ (.inl rfl) hv hp
  | text s =>
      rw [Value.encode] at hp ⊢
      rw [List.append_assoc]
      exact scanHead_string 3 _ _ _ _ (.inr rfl) hv hp
  | array items => exact hs.elim
  | map entries => exact hs.elim

/-- The scan of a list of scalars; the induction is on the list. -/
theorem scanItems_scalars (vs : List Value) (hs : ∀ v ∈ vs, Scalar v) (hv : ItemsEncodable vs)
    (rounds position : Nat) (rest : List UInt8) (below : List Nat)
    (hp : position + (encodeItems vs).length ≤ u64Max) :
    scanItems (rounds + vs.length) position (encodeItems vs ++ rest) (vs.length :: below) =
      scanItems rounds (position + (encodeItems vs).length) rest (0 :: below) := by
  induction vs generalizing position with
  | nil => rfl
  | cons v vs ih =>
      rw [encodeItems, List.length_append] at hp ⊢
      rw [List.length_cons, ← Nat.add_assoc, scanItems, List.append_assoc]
      have hdrop : ((vs.length + 1) :: below).dropWhile (· = 0) = (vs.length + 1) :: below := by
        simp [List.dropWhile]
      rw [hdrop]
      dsimp only
      rw [scanHead_scalar v (hs v List.mem_cons_self) hv.1 _ _ _ (by omega), ok_bind]
      dsimp only
      rw [if_neg (by decide), Nat.add_sub_cancel,
        ih (fun w hw => hs w (List.mem_cons_of_mem _ hw)) hv.2 _ (by omega), Nat.add_assoc]

def flatten : List (Value × Value) → List Value
  | [] => []
  | (k, v) :: es => k :: v :: flatten es

theorem encodeItems_flatten (es : List (Value × Value)) : encodeItems (flatten es) = encodeEntries es := by
  induction es with
  | nil => rfl
  | cons e es ih => rw [flatten, encodeItems, encodeItems, ih, encodeEntries]

theorem length_flatten (es : List (Value × Value)) : (flatten es).length = es.length * 2 := by
  induction es with
  | nil => rfl
  | cons e es ih => simp [flatten, ih]; omega

theorem itemsEncodable_flatten {es : List (Value × Value)} (h : EntriesEncodable es) :
    ItemsEncodable (flatten es) := by
  induction es with
  | nil => trivial
  | cons e es ih => exact ⟨h.1, h.2.1, ih h.2.2⟩

theorem scalar_flatten {es : List (Value × Value)} (h : ∀ e ∈ es, Scalar e.1 ∧ Scalar e.2) :
    ∀ v ∈ flatten es, Scalar v := by
  induction es with
  | nil => simp [flatten]
  | cons e es ih =>
      intro v hv
      simp only [flatten, List.mem_cons] at hv
      obtain rfl | rfl | hv := hv
      · exact (h e List.mem_cons_self).1
      · exact (h e List.mem_cons_self).2
      · exact ih (fun e he => h e (List.mem_cons_of_mem _ he)) v hv

theorem length_le_encodeItems (vs : List Value) : vs.length ≤ (encodeItems vs).length := by
  induction vs with
  | nil => exact Nat.zero_le _
  | cons v vs ih =>
      have hv : 0 < v.encode.length := List.length_pos_iff.2 (encode_ne_nil v)
      rw [encodeItems, List.length_append, List.length_cons]
      omega

theorem scanItems_done (rounds position : Nat) (rest : List UInt8) (remaining : List Nat)
    (hz : ∀ n ∈ remaining, n = 0) : scanItems (rounds + 1) position rest remaining = .ok position := by
  have hdrop : remaining.dropWhile (· = 0) = [] := by
    rw [List.dropWhile_eq_nil_iff]
    simpa using hz
  rw [scanItems, hdrop]

theorem validateCborStructure_map (es : List (Value × Value)) (hs : ∀ e ∈ es, Scalar e.1 ∧ Scalar e.2)
    (hv : (Value.map es).Encodable) (hl : (Value.map es).encode.length ≤ maxFrameSize) :
    validateCborStructure (Value.map es).encode = .ok () := by
  obtain ⟨hn, hes⟩ := hv
  have hitems := length_le_encodeItems (flatten es)
  rw [length_flatten, encodeItems_flatten] at hitems
  rw [Value.encode] at hl ⊢
  rw [List.length_append] at hl
  have hpos := length_head_pos 5 es.length
  have hmax : maxFrameSize = 1048576 := rfl
  have hu64 : u64Max = 18446744073709551615 := rfl
  obtain ⟨b, tail, hhead, hmajor, hread⟩ := readCborArgument_head 5 es.length 0 (encodeEntries es)
    (by decide) (by omega) (by omega)
  have hscan : scanHead 0 (head 5 es.length ++ encodeEntries es) 1 =
      .ok ((head 5 es.length).length, encodeEntries es, es.length * 2) := by
    rw [hhead, List.cons_append, scanHead]
    dsimp only
    rw [hread, hmajor, ok_bind, hhead]
    dsimp only
    have hcount : (if (5 : Nat) = 4 then es.length else es.length * 2) = es.length * 2 := rfl
    rw [if_neg (by decide), if_neg (by decide), if_pos (by decide), hcount, if_neg (by omega),
      Nat.zero_add]
    split_ifs with h hdeep
    · exact absurd hdeep (by decide)
    · rfl
    · rw [Nat.eq_zero_of_not_pos h]
  have hall : scanItems ((head 5 es.length ++ encodeEntries es).length + 2) 0
      (head 5 es.length ++ encodeEntries es) [1] =
        .ok ((head 5 es.length).length + (encodeEntries es).length) := by
    obtain ⟨k, hk⟩ : ∃ k, (head 5 es.length ++ encodeEntries es).length + 2 =
        k + 1 + es.length * 2 + 1 := by
      rw [List.length_append]
      exact ⟨(head 5 es.length).length + (encodeEntries es).length - es.length * 2, by omega⟩
    rw [hk]
    have hdrop : [1].dropWhile (fun n : Nat => decide (n = 0)) = [1] := rfl
    rw [scanItems, hdrop]
    dsimp only
    rw [List.length_nil, hscan, ok_bind]
    dsimp only
    split_ifs with h
    · have hrun := scanItems_scalars (flatten es) (scalar_flatten hs) (itemsEncodable_flatten hes)
        (k + 1) (head 5 es.length).length [] [0] (by rw [encodeItems_flatten]; omega)
      rw [length_flatten, encodeItems_flatten, List.append_nil] at hrun
      rw [Nat.sub_self, hrun]
      exact scanItems_done _ _ _ _ (by simp)
    · have hnil : es = [] := by
        rw [← List.length_eq_zero_iff]
        omega
      subst hnil
      exact scanItems_done _ _ _ _ (by simp)
  rw [validateCborStructure]
  rw [hall, ok_bind, if_pos (by rw [List.length_append])]

/-- The entries of a map under small unsigned keys. -/
def keyed (fields : List (Nat × Value)) : List (Value × Value) :=
  fields.map fun field => (.integer field.1, field.2)

structure FieldsOk (fields : List (Nat × Value)) : Prop where
  ascending : fields.Pairwise fun a b => a.1 < b.1
  small : ∀ field ∈ fields, field.1 < 24
  scalar : ∀ field ∈ fields, Scalar field.2
  encodable : ∀ field ∈ fields, field.2.Encodable

theorem FieldsOk.length_lt {fields : List (Nat × Value)} (h : FieldsOk fields) :
    fields.length ≤ 24 := by
  have hnd : (fields.map Prod.fst).Nodup := by
    rw [List.Nodup, List.pairwise_map]
    exact h.ascending.imp fun hlt => hlt.ne
  have hsub : fields.map Prod.fst ⊆ List.range 24 := by
    intro key hkey
    obtain ⟨field, hf, rfl⟩ := List.mem_map.1 hkey
    exact List.mem_range.2 (h.small field hf)
  simpa using (List.subperm_of_subset hnd hsub).length_le

theorem FieldsOk.entriesEncodable {fields : List (Nat × Value)} (h : FieldsOk fields) :
    EntriesEncodable (keyed fields) := by
  obtain ⟨-, hsmall, -, henc⟩ := h
  induction fields with
  | nil => trivial
  | cons field fields ih =>
      have hs := hsmall field List.mem_cons_self
      refine ⟨⟨by omega, by omega⟩, henc field List.mem_cons_self, ?_⟩
      exact ih (fun f hf => hsmall f (List.mem_cons_of_mem _ hf))
        (fun f hf => henc f (List.mem_cons_of_mem _ hf))

theorem FieldsOk.map_encodable {fields : List (Nat × Value)} (h : FieldsOk fields) :
    (Value.map (keyed fields)).Encodable := by
  have hl := h.length_lt
  refine ⟨?_, h.entriesEncodable⟩
  rw [keyed, List.length_map]
  omega

theorem FieldsOk.map_scalar {fields : List (Nat × Value)} (h : FieldsOk fields) :
    ∀ e ∈ keyed fields, Scalar e.1 ∧ Scalar e.2 := by
  intro e he
  obtain ⟨field, hf, rfl⟩ := List.mem_map.1 he
  exact ⟨trivial, h.scalar field hf⟩

theorem depth_of_scalar {v : Value} (h : Scalar v) : v.depth = 0 := by
  cases v with
  | integer | bytes | text => rfl
  | array | map => exact h.elim

theorem entriesDepth_of_scalar {es : List (Value × Value)} (h : ∀ e ∈ es, Scalar e.1 ∧ Scalar e.2) :
    entriesDepth es = 0 := by
  induction es with
  | nil => rfl
  | cons e es ih =>
      obtain ⟨hk, hv⟩ := h e List.mem_cons_self
      rw [entriesDepth, depth_of_scalar hk, depth_of_scalar hv,
        ih fun e he => h e (List.mem_cons_of_mem _ he)]
      rfl

theorem depth_map_of_scalar {es : List (Value × Value)} (h : ∀ e ∈ es, Scalar e.1 ∧ Scalar e.2) :
    (Value.map es).depth ≤ 1 := by
  cases es with
  | nil => exact Nat.zero_le _
  | cons e es =>
      obtain ⟨hk, hv⟩ := h e List.mem_cons_self
      rw [Value.depth, depth_of_scalar hk, depth_of_scalar hv,
        entriesDepth_of_scalar fun e he => h e (List.mem_cons_of_mem _ he)]
      rfl

/-- The loop over the entries; the induction is on the entries, under keys
that all of them exceed. -/
theorem collectEntries_keyed (fields : List (Nat × Value)) (keys : List Nat)
    (hasc : fields.Pairwise fun a b => a.1 < b.1) (hsmall : ∀ field ∈ fields, field.1 ≤ u64Max)
    (hkeys : ∀ key ∈ keys, ∀ field ∈ fields, key < field.1) :
    collectEntries keys (keyed fields) = .ok fields := by
  induction fields generalizing keys with
  | nil => rfl
  | cons field fields ih =>
      obtain ⟨hlt, hasc⟩ := List.pairwise_cons.1 hasc
      have hs := hsmall field List.mem_cons_self
      have hfresh : field.1 ∉ keys := by
        intro hk
        exact absurd (hkeys _ hk field List.mem_cons_self) (lt_irrefl _)
      have hkey : u64TryFrom (field.1 : Int) = some field.1 := by
        rw [u64TryFrom, if_pos ⟨by omega, by omega⟩, Int.toNat_natCast]
      rw [keyed, List.map_cons, collectEntries]
      simp only [hkey]
      rw [if_neg hfresh, ← keyed, ih (field.1 :: keys) hasc
        (fun f hf => hsmall f (List.mem_cons_of_mem _ hf)) ?_]
      · rfl
      · intro key hkey f hf
        obtain rfl | hkey := List.mem_cons.1 hkey
        · exact hlt f hf
        · exact hkeys key hkey f (List.mem_cons_of_mem _ hf)

theorem sortByKey_of_ascending {fields : List (Nat × Value)}
    (hasc : fields.Pairwise fun a b => a.1 < b.1) : sortByKey fields = fields := by
  refine List.Pairwise.insertionSort_eq ?_
  exact hasc.imp fun hlt => hlt.le

section Codec

variable [Ciborium]

theorem validateCborMapPayload_keyed (rfc : Ciborium.Rfc8949) {fields : List (Nat × Value)}
    (h : FieldsOk fields) (hl : (Value.map (keyed fields)).encode.length ≤ maxFrameSize) :
    validateCborMapPayload (Value.map (keyed fields)).encode = .ok fields := by
  have hread := rfc.reads _ h.map_encodable
    ((depth_map_of_scalar h.map_scalar).trans (by decide)) []
  rw [List.append_nil] at hread
  have hsmall : ∀ field ∈ fields, field.1 ≤ u64Max := fun field hf =>
    (h.small field hf).le.trans (by decide)
  have hcollect := collectEntries_keyed fields [] h.ascending hsmall (by simp)
  have hwrite : encodingError (Ciborium.intoWriter (.map (fields.map fun entry =>
      (Value.integer entry.1, entry.2)))) = .ok (Value.map (keyed fields)).encode := by
    rw [← keyed, rfc.writes _ h.map_encodable]
    rfl
  rw [validateCborMapPayload]
  rw [if_neg (by omega), validateCborStructure_map _ h.map_scalar h.map_encodable hl, hread]
  simp only [encodingError, ok_bind, ne_eq, not_true_eq_false, if_false, hcollect,
    sortByKey_of_ascending h.ascending] at hwrite ⊢
  rw [hwrite, ok_bind, if_neg (not_not.2 rfl)]
  rfl

/-- A map of fields goes into a frame, and comes out of it. -/
theorem encodeMap_keyed (rfc : Ciborium.Rfc8949) (messageType : MessageType)
    {fields : List (Nat × Value)} (h : FieldsOk fields)
    (hl : (Value.map (keyed fields)).encode.length ≤ messageType.maxPayload) :
    ∃ frame, encodeMap messageType (keyed fields) = .ok frame ∧ frame.messageType = messageType ∧
      frame.payload = (Value.map (keyed fields)).encode ∧ frame.validateCborMap = .ok fields := by
  have hmax : messageType.maxPayload ≤ maxFrameSize := by cases messageType <;> decide
  have hu32 : maxFrameSize ≤ u32Max := by decide
  refine ⟨⟨.v1, messageType, (Value.map (keyed fields)).encode⟩, ?_, rfl, rfl,
    validateCborMapPayload_keyed rfc h (by omega)⟩
  unfold encodeMap Frame.new payloadLength checkLength frameLength
  rw [rfc.writes _ h.map_encodable, encodingError, ok_bind, if_pos (by omega), ok_bind,
    if_neg (by omega), if_pos (by omega)]
  rfl

end Codec

end Ruxmsg

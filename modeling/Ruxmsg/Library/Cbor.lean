import Mathlib.Data.List.Induction
import Mathlib.Tactic.Ring

namespace Ruxmsg.Library.Cbor

/-- Definite-length CBOR data items: integers, byte and text strings, arrays
and maps. Tags, simple values and floats are left out. -/
inductive Value
  | integer (i : Int)
  | bytes (b : List UInt8)
  | text (s : String)
  | array (items : List Value)
  | map (entries : List (Value × Value))

def beBytes : Nat → Nat → List UInt8
  | 0, _ => []
  | k + 1, n => beBytes k (n / 256) ++ [UInt8.ofNat n]

def ofBytes (bs : List UInt8) : Nat := bs.foldl (fun n b => n * 256 + b.toNat) 0

def head (major n : Nat) : List UInt8 :=
  if n < 24 then [UInt8.ofNat (major * 32 + n)]
  else if n < 256 then UInt8.ofNat (major * 32 + 24) :: beBytes 1 n
  else if n < 65536 then UInt8.ofNat (major * 32 + 25) :: beBytes 2 n
  else if n < 4294967296 then UInt8.ofNat (major * 32 + 26) :: beBytes 4 n
  else UInt8.ofNat (major * 32 + 27) :: beBytes 8 n

def utf8 (s : String) : List UInt8 := s.toUTF8.data.toList

mutual

/-- Preferred serialization: every head in shortest form, entries in the
order of the value. -/
def Value.encode : Value → List UInt8
  | .integer i => if 0 ≤ i then head 0 i.toNat else head 1 (-1 - i).toNat
  | .bytes b => head 2 b.length ++ b
  | .text s => head 3 (utf8 s).length ++ utf8 s
  | .array items => head 4 items.length ++ encodeItems items
  | .map entries => head 5 entries.length ++ encodeEntries entries

def encodeItems : List Value → List UInt8
  | [] => []
  | v :: vs => v.encode ++ encodeItems vs

def encodeEntries : List (Value × Value) → List UInt8
  | [] => []
  | (k, v) :: es => k.encode ++ (v.encode ++ encodeEntries es)

end

mutual

/-- Every argument fits the 64 bits a head can carry. -/
def Value.Encodable : Value → Prop
  | .integer i => -2 ^ 64 ≤ i ∧ i < 2 ^ 64
  | .bytes b => b.length < 2 ^ 64
  | .text s => (utf8 s).length < 2 ^ 64
  | .array items => items.length < 2 ^ 64 ∧ ItemsEncodable items
  | .map entries => entries.length < 2 ^ 63 ∧ EntriesEncodable entries

def ItemsEncodable : List Value → Prop
  | [] => True
  | v :: vs => v.Encodable ∧ ItemsEncodable vs

def EntriesEncodable : List (Value × Value) → Prop
  | [] => True
  | (k, v) :: es => k.Encodable ∧ v.Encodable ∧ EntriesEncodable es

end

theorem entriesEncodable_iff {es : List (Value × Value)} :
    EntriesEncodable es ↔ ∀ e ∈ es, e.1.Encodable ∧ e.2.Encodable := by
  induction es with
  | nil => simp [EntriesEncodable]
  | cons e es ih => rw [EntriesEncodable, ih, List.forall_mem_cons, and_assoc]

mutual

/-- Nesting of non-empty containers. -/
def Value.depth : Value → Nat
  | .integer _ => 0
  | .bytes _ => 0
  | .text _ => 0
  | .array [] => 0
  | .array (v :: vs) => max v.depth (itemsDepth vs) + 1
  | .map [] => 0
  | .map ((k, v) :: es) => max (max k.depth v.depth) (entriesDepth es) + 1

def itemsDepth : List Value → Nat
  | [] => 0
  | v :: vs => max v.depth (itemsDepth vs)

def entriesDepth : List (Value × Value) → Nat
  | [] => 0
  | (k, v) :: es => max (max k.depth v.depth) (entriesDepth es)

end

def readArgument (info : Nat) (bs : List UInt8) : Option (Nat × List UInt8) :=
  if info < 24 then some (info, bs)
  else
    let width := if info = 24 then 1 else if info = 25 then 2 else if info = 26 then 4 else 8
    if info < 28 ∧ width ≤ bs.length then some (ofBytes (bs.take width), bs.drop width) else none

def readBytes (n : Nat) (bs : List UInt8) : Option (List UInt8 × List UInt8) :=
  if n ≤ bs.length then some (bs.take n, bs.drop n) else none

mutual

/-- A reader of one data item; the fuel bounds the number of items started. -/
def decodeValue : Nat → List UInt8 → Option (Value × List UInt8)
  | 0, _ => none
  | _ + 1, [] => none
  | fuel + 1, b :: bs => do
      let (n, bs) ← readArgument (b.toNat % 32) bs
      let major := b.toNat / 32
      if major = 0 then some (.integer n, bs)
      else if major = 1 then some (.integer (-1 - n), bs)
      else if major = 2 then do
        let (content, bs) ← readBytes n bs
        some (.bytes content, bs)
      else if major = 3 then do
        let (content, bs) ← readBytes n bs
        let s ← String.fromUTF8? ⟨content.toArray⟩
        some (.text s, bs)
      else if major = 4 then do
        let (items, bs) ← decodeItems fuel n bs
        some (.array items, bs)
      else if major = 5 then do
        let (entries, bs) ← decodeEntries fuel n bs
        some (.map entries, bs)
      else none

def decodeItems : Nat → Nat → List UInt8 → Option (List Value × List UInt8)
  | 0, _, _ => none
  | _ + 1, 0, bs => some ([], bs)
  | fuel + 1, n + 1, bs => do
      let (v, bs) ← decodeValue fuel bs
      let (vs, bs) ← decodeItems fuel n bs
      some (v :: vs, bs)

def decodeEntries : Nat → Nat → List UInt8 → Option (List (Value × Value) × List UInt8)
  | 0, _, _ => none
  | _ + 1, 0, bs => some ([], bs)
  | fuel + 1, n + 1, bs => do
      let (k, bs) ← decodeValue fuel bs
      let (v, bs) ← decodeValue fuel bs
      let (es, bs) ← decodeEntries fuel n bs
      some ((k, v) :: es, bs)

end

mutual

/-- Fuel that suffices to read a value back. -/
def Value.fuel : Value → Nat
  | .integer _ => 1
  | .bytes _ => 1
  | .text _ => 1
  | .array items => itemsFuel items + 1
  | .map entries => entriesFuel entries + 1

def itemsFuel : List Value → Nat
  | [] => 1
  | v :: vs => max v.fuel (itemsFuel vs) + 1

def entriesFuel : List (Value × Value) → Nat
  | [] => 1
  | (k, v) :: es => max (max k.fuel v.fuel) (entriesFuel es) + 1

end

theorem length_beBytes (k n : Nat) : (beBytes k n).length = k := by
  induction k generalizing n with
  | zero => rfl
  | succ k ih => simp [beBytes, ih]

theorem length_head (major n : Nat) : (head major n).length =
    if n < 24 then 1 else if n < 256 then 2 else if n < 65536 then 3
    else if n < 4294967296 then 5 else 9 := by
  rw [head]
  split_ifs <;> simp [length_beBytes]

theorem length_head_pos (major n : Nat) : 0 < (head major n).length := by
  rw [length_head]
  split_ifs <;> omega

theorem ofBytes_append_singleton (bs : List UInt8) (b : UInt8) :
    ofBytes (bs ++ [b]) = ofBytes bs * 256 + b.toNat := by
  simp [ofBytes, List.foldl_append]

theorem ofBytes_beBytes (k n : Nat) (h : n < 256 ^ k) : ofBytes (beBytes k n) = n := by
  induction k generalizing n with
  | zero =>
      have hn : n = 0 := by simpa using h
      rw [hn]
      rfl
  | succ k ih =>
      have hq : n / 256 < 256 ^ k := by
        rw [Nat.pow_succ] at h
        exact Nat.div_lt_of_lt_mul (by rwa [Nat.mul_comm] at h)
      rw [beBytes, ofBytes_append_singleton, ih _ hq]
      simp only [UInt8.toNat_ofNat']
      omega

theorem ofBytes_lt (bs : List UInt8) : ofBytes bs < 256 ^ bs.length := by
  induction bs using List.reverseRecOn with
  | nil => simp [ofBytes]
  | append_singleton bs b ih =>
      rw [ofBytes_append_singleton, List.length_append, List.length_singleton, Nat.pow_succ]
      have hb := b.toNat_lt
      omega

theorem beBytes_ofBytes (bs : List UInt8) : beBytes bs.length (ofBytes bs) = bs := by
  induction bs using List.reverseRecOn with
  | nil => rfl
  | append_singleton bs b ih =>
      have hb := b.toNat_lt
      have hd : (ofBytes bs * 256 + b.toNat) / 256 = ofBytes bs := by omega
      rw [List.length_append, List.length_singleton, ofBytes_append_singleton, beBytes, hd, ih]
      congr 2
      apply UInt8.toNat.inj
      simp only [UInt8.toNat_ofNat']
      omega

/-- A head starts with its major type and shortest additional information,
and the argument can be read back. -/
theorem head_eq_cons (major n : Nat) (hm : major < 8) (hn : n < 2 ^ 64) :
    ∃ b tail, head major n = b :: tail ∧ b.toNat / 32 = major ∧
      ∀ rest, readArgument (b.toNat % 32) (tail ++ rest) = some (n, rest) := by
  have hr (k info : Nat) (hk : n < 256 ^ k) (hi : 24 ≤ info) (hi' : info < 28)
      (hw : (if info = 24 then 1 else if info = 25 then 2 else if info = 26 then 4 else 8) = k)
      (rest : List UInt8) : readArgument info (beBytes k n ++ rest) = some (n, rest) := by
    have hlt : ¬ info < 24 := by omega
    have hl := length_beBytes k n
    simp only [readArgument, hlt, if_false, hw, hi', List.length_append, hl]
    rw [if_pos ⟨trivial, Nat.le_add_right _ _⟩, List.take_left' hl, List.drop_left' hl,
      ofBytes_beBytes k n hk]
  have hb (info : Nat) (hi : info < 32) :
      (UInt8.ofNat (major * 32 + info)).toNat = major * 32 + info := by
    simp only [UInt8.toNat_ofNat']
    omega
  rw [head]
  split
  next h =>
    refine ⟨_, _, rfl, ?_, fun rest => ?_⟩
    · rw [hb n (by omega)]; omega
    · rw [hb n (by omega), show (major * 32 + n) % 32 = n by omega]
      simp [readArgument, h]
  next =>
    split
    next h =>
      refine ⟨_, _, rfl, by rw [hb 24 (by omega)]; omega, fun rest => ?_⟩
      rw [hb 24 (by omega), show (major * 32 + 24) % 32 = 24 by omega]
      exact hr 1 24 (by omega) le_rfl (by omega) rfl rest
    next =>
      split
      next h =>
        refine ⟨_, _, rfl, by rw [hb 25 (by omega)]; omega, fun rest => ?_⟩
        rw [hb 25 (by omega), show (major * 32 + 25) % 32 = 25 by omega]
        exact hr 2 25 (by omega) (by omega) (by omega) rfl rest
      next =>
        split
        next h =>
          refine ⟨_, _, rfl, by rw [hb 26 (by omega)]; omega, fun rest => ?_⟩
          rw [hb 26 (by omega), show (major * 32 + 26) % 32 = 26 by omega]
          exact hr 4 26 (by omega) (by omega) (by omega) rfl rest
        next h =>
          refine ⟨_, _, rfl, by rw [hb 27 (by omega)]; omega, fun rest => ?_⟩
          rw [hb 27 (by omega), show (major * 32 + 27) % 32 = 27 by omega]
          exact hr 8 27 (by omega) (by omega) (by omega) rfl rest

theorem readBytes_append (b rest : List UInt8) : readBytes b.length (b ++ rest) = some (b, rest) := by
  simp [readBytes]

theorem fromUTF8_utf8 (s : String) : String.fromUTF8? ⟨(utf8 s).toArray⟩ = some s := by
  have hs : (⟨(utf8 s).toArray⟩ : ByteArray) = s.toUTF8 := by simp [utf8]
  have hv : s.toUTF8.IsValidUTF8 := s.isValidUTF8
  rw [hs, String.fromUTF8?, dif_pos hv]
  rfl

/-- Reading values, arrays and maps back from the front of a longer input;
the induction is on the fuel the three readers share. -/
theorem decode_encode (fuel : Nat) :
    (∀ v : Value, v.Encodable → v.fuel ≤ fuel → ∀ rest,
      decodeValue fuel (v.encode ++ rest) = some (v, rest)) ∧
    (∀ vs, ItemsEncodable vs → itemsFuel vs ≤ fuel → ∀ rest,
      decodeItems fuel vs.length (encodeItems vs ++ rest) = some (vs, rest)) ∧
    (∀ es, EntriesEncodable es → entriesFuel es ≤ fuel → ∀ rest,
      decodeEntries fuel es.length (encodeEntries es ++ rest) = some (es, rest)) := by
  induction fuel with
  | zero =>
      refine ⟨fun v _ hf => ?_, fun vs _ hf => ?_, fun es _ hf => ?_⟩
      · cases v <;> simp [Value.fuel] at hf
      · cases vs <;> simp [itemsFuel] at hf
      · rcases es with _ | ⟨⟨k, v⟩, es⟩ <;> simp [entriesFuel] at hf
  | succ fuel ih =>
      obtain ⟨ihv, ihs, ihe⟩ := ih
      refine ⟨fun v hv hf rest => ?_, fun vs hv hf rest => ?_, fun es he hf rest => ?_⟩
      · cases v with
        | integer i =>
            obtain ⟨hlo, hhi⟩ := hv
            by_cases hi : 0 ≤ i
            · obtain ⟨b, tail, hh, hm, hr⟩ := head_eq_cons 0 i.toNat (by omega) (by omega)
              rw [Value.encode, if_pos hi, hh, List.cons_append]
              simp [decodeValue, hr, hm, hi]
            · obtain ⟨b, tail, hh, hm, hr⟩ := head_eq_cons 1 (-1 - i).toNat (by omega) (by omega)
              rw [Value.encode, if_neg hi, hh, List.cons_append]
              simp only [decodeValue, hr, hm]
              simp
              omega
        | bytes content =>
            obtain ⟨b, tail, hh, hm, hr⟩ := head_eq_cons 2 content.length (by omega) hv
            simp only [Value.encode, hh, List.cons_append, List.append_assoc]
            simp [decodeValue, hm, hr, readBytes_append]
        | text s =>
            obtain ⟨b, tail, hh, hm, hr⟩ := head_eq_cons 3 (utf8 s).length (by omega) hv
            simp only [Value.encode, hh, List.cons_append, List.append_assoc]
            simp [decodeValue, hm, hr, readBytes_append, fromUTF8_utf8]
        | array items =>
            obtain ⟨hl, hi⟩ := hv
            obtain ⟨b, tail, hh, hm, hr⟩ := head_eq_cons 4 items.length (by omega) hl
            have hd := ihs items hi (by simp only [Value.fuel] at hf; omega) rest
            simp only [Value.encode, hh, List.cons_append, List.append_assoc]
            simp [decodeValue, hm, hr, hd]
        | map entries =>
            obtain ⟨hl, he⟩ := hv
            obtain ⟨b, tail, hh, hm, hr⟩ := head_eq_cons 5 entries.length (by omega) (by omega)
            have hd := ihe entries he (by simp only [Value.fuel] at hf; omega) rest
            simp only [Value.encode, hh, List.cons_append, List.append_assoc]
            simp [decodeValue, hm, hr, hd]
      · cases vs with
        | nil => simp [encodeItems, decodeItems]
        | cons v vs =>
            obtain ⟨h, ht⟩ := hv
            simp only [itemsFuel] at hf
            have hd := ihv v h (by omega) (encodeItems vs ++ rest)
            have hds := ihs vs ht (by omega) rest
            simp [encodeItems, decodeItems, hd, hds]
      · cases es with
        | nil => simp [encodeEntries, decodeEntries]
        | cons e es =>
            obtain ⟨k, v⟩ := e
            obtain ⟨hk, hv, ht⟩ := he
            simp only [entriesFuel] at hf
            have hdk := ihv k hk (by omega) (v.encode ++ (encodeEntries es ++ rest))
            have hdv := ihv v hv (by omega) (encodeEntries es ++ rest)
            have hds := ihe es ht (by omega) rest
            simp [encodeEntries, decodeEntries, hdk, hdv, hds]

theorem encode_ne_nil (v : Value) : v.encode ≠ [] := by
  have hh (m n : Nat) : head m n ≠ [] := List.ne_nil_of_length_pos (length_head_pos m n)
  cases v <;> rw [Value.encode] <;> try split
  all_goals simp [hh]

mutual

/-- Two units of fuel per input byte suffice. -/
theorem fuel_le_length (v : Value) : v.fuel ≤ 2 * v.encode.length := by
  have hp := List.length_pos_iff.2 (encode_ne_nil v)
  cases v with
  | integer i => rw [Value.fuel]; omega
  | bytes b => rw [Value.fuel]; omega
  | text s => rw [Value.fuel]; omega
  | array items =>
      have hi := itemsFuel_le_length items
      have hh := length_head_pos 4 items.length
      rw [Value.fuel, Value.encode, List.length_append]
      omega
  | map entries =>
      have he := entriesFuel_le_length entries
      have hh := length_head_pos 5 entries.length
      rw [Value.fuel, Value.encode, List.length_append]
      omega

theorem itemsFuel_le_length (vs : List Value) : itemsFuel vs ≤ 2 * (encodeItems vs).length + 1 := by
  match vs with
  | [] => simp [itemsFuel]
  | v :: vs =>
      have hv := fuel_le_length v
      have hvs := itemsFuel_le_length vs
      have hp := List.length_pos_iff.2 (encode_ne_nil v)
      rw [itemsFuel, encodeItems, List.length_append]
      omega

theorem entriesFuel_le_length (es : List (Value × Value)) :
    entriesFuel es ≤ 2 * (encodeEntries es).length + 1 := by
  match es with
  | [] => simp [entriesFuel]
  | (k, v) :: es =>
      have hk := fuel_le_length k
      have hv := fuel_le_length v
      have hes := entriesFuel_le_length es
      have hp := List.length_pos_iff.2 (encode_ne_nil k)
      have hp' := List.length_pos_iff.2 (encode_ne_nil v)
      rw [entriesFuel, encodeEntries, List.length_append, List.length_append]
      omega

end

def decode (bs : List UInt8) : Option (Value × List UInt8) := decodeValue (2 * bs.length) bs

theorem decode_encode_append (v : Value) (hv : v.Encodable) (rest : List UInt8) :
    decode (v.encode ++ rest) = some (v, rest) := by
  have hf := fuel_le_length v
  refine (decode_encode _).1 v hv (hf.trans ?_) rest
  rw [List.length_append]
  omega

theorem encode_injective {v w : Value} (hv : v.Encodable) (hw : w.Encodable)
    (h : v.encode = w.encode) : v = w := by
  have hd := decode_encode_append v hv []
  rw [h, decode_encode_append w hw] at hd
  simpa using hd.symm

end Ruxmsg.Library.Cbor

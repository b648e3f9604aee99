import Ruxmsg.Library.Cbor

namespace Ruxmsg.Library.Cbor

mutual

/-- The bytes of one data item: integers, definite strings, arrays and maps,
every head in shortest form, with at most `depth` non-empty containers inside
each other. -/
inductive Item : (depth : Nat) → List UInt8 → Prop
  | integer {depth major n : Nat} (hmajor : major ≤ 1) (hn : n < 2 ^ 64) : Item depth (head major n)
  | string {depth major : Nat} {content : List UInt8} (hmajor : major = 2 ∨ major = 3)
      (hn : content.length < 2 ^ 64) : Item depth (head major content.length ++ content)
  | empty {depth major : Nat} (hmajor : major = 4 ∨ major = 5) : Item depth (head major 0)
  | array {depth n : Nat} {items : List UInt8} (hpos : 0 < n) (hn : n < 2 ^ 64)
      (h : Items depth n items) : Item (depth + 1) (head 4 n ++ items)
  | map {depth n : Nat} {items : List UInt8} (hpos : 0 < n) (hn : n < 2 ^ 64)
      (h : Items depth (n * 2) items) : Item (depth + 1) (head 5 n ++ items)

inductive Items : (depth count : Nat) → List UInt8 → Prop
  | nil {depth : Nat} : Items depth 0 []
  | cons {depth count : Nat} {item items : List UInt8} (h : Item depth item)
      (hs : Items depth count items) : Items depth (count + 1) (item ++ items)

end

@[simp] theorem items_zero {depth : Nat} {bs : List UInt8} : Items depth 0 bs ↔ bs = [] := by
  constructor
  · intro h
    cases h
    rfl
  · rintro rfl
    exact .nil

theorem items_succ {depth count : Nat} {bs : List UInt8} : Items depth (count + 1) bs ↔
    ∃ item items, bs = item ++ items ∧ Item depth item ∧ Items depth count items := by
  constructor
  · intro h
    cases h with
    | cons h hs => exact ⟨_, _, rfl, h, hs⟩
  · rintro ⟨item, items, rfl, h, hs⟩
    exact .cons h hs

theorem items_one {depth : Nat} {bs : List UInt8} : Items depth 1 bs ↔ Item depth bs := by
  simp [items_succ]

theorem Item.length_pos {depth : Nat} {bs : List UInt8} (h : Item depth bs) : 0 < bs.length := by
  cases h with
  | integer | empty => exact length_head_pos _ _
  | string | array | map =>
      rw [List.length_append]
      exact Nat.add_pos_left (length_head_pos _ _) _

theorem Items.count_le {depth count : Nat} {bs : List UInt8} (h : Items depth count bs) :
    count ≤ bs.length := by
  induction count generalizing bs with
  | zero => exact Nat.zero_le _
  | succ count ih =>
      obtain ⟨item, items, rfl, h, hs⟩ := items_succ.1 h
      have hpos := h.length_pos
      have hle := ih hs
      rw [List.length_append]
      omega

/-- What a stack of item counts, its top first, still asks of the input: the
items of each container, with room for as many containers as are not open yet. -/
inductive Pending (room : Nat) : List Nat → List UInt8 → Prop
  | done : Pending room [] []
  | items {count : Nat} {below : List Nat} {items rest : List UInt8}
      (hs : Items (room - below.length) count items) (h : Pending room below rest) :
      Pending room (count :: below) (items ++ rest)

section Stack

variable {room count : Nat} {below : List Nat} {bs : List UInt8}

@[simp] theorem pending_nil : Pending room [] bs ↔ bs = [] := by
  constructor
  · intro h
    cases h
    rfl
  · rintro rfl
    exact .done

theorem pending_cons : Pending room (count :: below) bs ↔
    ∃ items rest, bs = items ++ rest ∧ Items (room - below.length) count items ∧
      Pending room below rest := by
  constructor
  · intro h
    cases h with
    | items hs h => exact ⟨_, _, rfl, hs, h⟩
  · rintro ⟨items, rest, rfl, hs, h⟩
    exact .items hs h

theorem pending_zero : Pending room (0 :: below) bs ↔ Pending room below bs := by
  simp [pending_cons]

theorem pending_dropWhile (stack : List Nat) :
    Pending room (stack.dropWhile (· = 0)) bs ↔ Pending room stack bs := by
  induction stack with
  | nil => exact Iff.rfl
  | cons count below ih =>
      rw [List.dropWhile_cons]
      split
      next hzero =>
        obtain rfl := of_decide_eq_true hzero
        rw [ih, pending_zero]
      next => exact Iff.rfl

theorem pending_succ : Pending room ((count + 1) :: below) bs ↔
    ∃ item rest, bs = item ++ rest ∧ Item (room - below.length) item ∧
      Pending room (count :: below) rest := by
  rw [pending_cons]
  constructor
  · rintro ⟨_, rest, rfl, hs, h⟩
    obtain ⟨item, items, rfl, hi, hs⟩ := items_succ.1 hs
    exact ⟨item, items ++ rest, List.append_assoc _ _ _, hi, .items hs h⟩
  · rintro ⟨item, _, rfl, hi, h⟩
    obtain ⟨items, rest, rfl, hs, h⟩ := pending_cons.1 h
    exact ⟨item ++ items, rest, (List.append_assoc _ _ _).symm, .cons hi hs, h⟩

/-- A container that opens goes on top, as long as there is room. -/
theorem pending_open {depth n : Nat} (hroom : below.length < room)
    (hdepth : depth + 1 = room - below.length) :
    Pending room (n :: count :: below) bs ↔
      ∃ items rest, bs = items ++ rest ∧ Items depth n items ∧ Pending room (count :: below) rest := by
  have hd : room - (count :: below).length = depth := by
    rw [List.length_cons]
    omega
  rw [pending_cons, hd]

end Stack

section Reading

theorem decodeValue_head {fuel major n : Nat} (hm : major < 8) (hn : n < 2 ^ 64) (rest : List UInt8) :
    decodeValue (fuel + 1) (head major n ++ rest) =
      if major = 0 then some (.integer n, rest)
      else if major = 1 then some (.integer (-1 - n), rest)
      else if major = 2 then do
        let (content, rest) ← readBytes n rest
        some (.bytes content, rest)
      else if major = 3 then do
        let (content, rest) ← readBytes n rest
        let s ← String.fromUTF8? ⟨content.toArray⟩
        some (.text s, rest)
      else if major = 4 then do
        let (items, rest) ← decodeItems fuel n rest
        some (.array items, rest)
      else if major = 5 then do
        let (entries, rest) ← decodeEntries fuel n rest
        some (.map entries, rest)
      else none := by
  obtain ⟨b, tail, hhead, hmajor, hread⟩ := head_eq_cons major n hm hn
  rw [hhead, List.cons_append]
  simp only [decodeValue, hread, hmajor, Option.bind_eq_bind, Option.bind_some]

theorem utf8_of_fromUTF8 {content : List UInt8} {s : String}
    (h : String.fromUTF8? ⟨content.toArray⟩ = some s) : utf8 s = content := by
  rw [String.fromUTF8?] at h
  split at h
  next hvalid =>
    rw [← Option.some.inj h, utf8]
    simp [String.toUTF8, String.fromUTF8]
  next => cases h

structure ReadBack (depth : Nat) (bs rest : List UInt8) (v : Value) (rest' : List UInt8) : Prop where
  rest_eq : rest' = rest
  encode_eq : v.encode = bs
  encodable : v.Encodable
  depth_le : v.depth ≤ depth

theorem depth_array_le {depth : Nat} {items : List Value} (h : itemsDepth items ≤ depth) :
    (Value.array items).depth ≤ depth + 1 := by
  cases items with
  | nil => exact Nat.zero_le _
  | cons v vs => exact Nat.succ_le_succ h

theorem depth_map_le {depth : Nat} {entries : List (Value × Value)} (h : entriesDepth entries ≤ depth) :
    (Value.map entries).depth ≤ depth + 1 := by
  cases entries with
  | nil => exact Nat.zero_le _
  | cons e es => exact Nat.succ_le_succ h

theorem readBytes_append_eq {content rest read rest' : List UInt8}
    (h : readBytes content.length (content ++ rest) = some (read, rest')) :
    content = read ∧ rest = rest' := by
  rw [readBytes_append, Option.some.injEq, Prod.mk.injEq] at h
  exact h

section Heads

variable {fuel n : Nat} {rest rest' : List UInt8} {v : Value}

theorem decodeValue_bytes (hn : n < 2 ^ 64)
    (h : decodeValue (fuel + 1) (head 2 n ++ rest) = some (v, rest')) :
    ∃ content, readBytes n rest = some (content, rest') ∧ v = .bytes content := by
  rw [decodeValue_head (by decide) hn, if_neg (by decide), if_neg (by decide), if_pos rfl] at h
  obtain ⟨⟨content, tail⟩, hread, hv⟩ := Option.bind_eq_some_iff.1 h
  cases hv
  exact ⟨content, hread, rfl⟩

theorem decodeValue_text (hn : n < 2 ^ 64)
    (h : decodeValue (fuel + 1) (head 3 n ++ rest) = some (v, rest')) :
    ∃ content s, readBytes n rest = some (content, rest') ∧
      String.fromUTF8? ⟨content.toArray⟩ = some s ∧ v = .text s := by
  rw [decodeValue_head (by decide) hn, if_neg (by decide), if_neg (by decide), if_neg (by decide),
    if_pos rfl] at h
  obtain ⟨⟨content, tail⟩, hread, htext⟩ := Option.bind_eq_some_iff.1 h
  obtain ⟨s, hs, hv⟩ := Option.bind_eq_some_iff.1 htext
  cases hv
  exact ⟨content, s, hread, hs, rfl⟩

theorem decodeValue_array (hn : n < 2 ^ 64)
    (h : decodeValue (fuel + 1) (head 4 n ++ rest) = some (v, rest')) :
    ∃ items, decodeItems fuel n rest = some (items, rest') ∧ v = .array items := by
  rw [decodeValue_head (by decide) hn, if_neg (by decide), if_neg (by decide), if_neg (by decide),
    if_neg (by decide), if_pos rfl] at h
  obtain ⟨⟨items, tail⟩, hread, hv⟩ := Option.bind_eq_some_iff.1 h
  cases hv
  exact ⟨items, hread, rfl⟩

theorem decodeValue_map (hn : n < 2 ^ 64)
    (h : decodeValue (fuel + 1) (head 5 n ++ rest) = some (v, rest')) :
    ∃ entries, decodeEntries fuel n rest = some (entries, rest') ∧ v = .map entries := by
  rw [decodeValue_head (by decide) hn, if_neg (by decide), if_neg (by decide), if_neg (by decide),
    if_neg (by decide), if_neg (by decide), if_pos rfl] at h
  obtain ⟨⟨entries, tail⟩, hread, hv⟩ := Option.bind_eq_some_iff.1 h
  cases hv
  exact ⟨entries, hread, rfl⟩

end Heads

structure ReadsGrammar (fuel : Nat) : Prop where
  value : ∀ {depth bs rest v rest'}, Item depth bs → bs.length < 2 ^ 64 →
    decodeValue fuel (bs ++ rest) = some (v, rest') → ReadBack depth bs rest v rest'
  items : ∀ {depth n bs rest vs rest'}, Items depth n bs → bs.length < 2 ^ 64 →
    decodeItems fuel n (bs ++ rest) = some (vs, rest') → rest' = rest ∧ vs.length = n ∧
      encodeItems vs = bs ∧ ItemsEncodable vs ∧ itemsDepth vs ≤ depth
  entries : ∀ {depth n bs rest es rest'}, Items depth (n * 2) bs → bs.length < 2 ^ 64 →
    decodeEntries fuel n (bs ++ rest) = some (es, rest') → rest' = rest ∧ es.length = n ∧
      encodeEntries es = bs ∧ EntriesEncodable es ∧ entriesDepth es ≤ depth

namespace ReadsGrammar

variable {fuel depth n : Nat} {bs rest rest' : List UInt8}

theorem value_succ (ih : ReadsGrammar fuel) {v : Value} (hitem : Item depth bs) (hlen : bs.length < 2 ^ 64)
    (h : decodeValue (fuel + 1) (bs ++ rest) = some (v, rest')) : ReadBack depth bs rest v rest' := by
  cases hitem with
  | @integer _ major n hmajor hn =>
      rw [decodeValue_head (by omega) hn] at h
      obtain rfl | rfl : major = 0 ∨ major = 1 := by omega
      · cases h
        exact ⟨rfl, by rw [Value.encode, if_pos (by omega)]; rfl, ⟨by omega, by omega⟩, Nat.zero_le _⟩
      · cases h
        refine ⟨rfl, ?_, ⟨by omega, by omega⟩, Nat.zero_le _⟩
        rw [Value.encode, if_neg (by omega)]
        congr 1
        omega
  | @string _ major content hmajor hn =>
      rw [List.append_assoc] at h
      obtain rfl | rfl := hmajor
      · obtain ⟨read, hread, rfl⟩ := decodeValue_bytes hn h
        obtain ⟨rfl, rfl⟩ := readBytes_append_eq hread
        exact ⟨rfl, rfl, hn, Nat.zero_le _⟩
      · obtain ⟨read, s, hread, hs, rfl⟩ := decodeValue_text hn h
        obtain ⟨rfl, rfl⟩ := readBytes_append_eq hread
        obtain rfl := utf8_of_fromUTF8 hs
        exact ⟨rfl, rfl, hn, Nat.zero_le _⟩
  | @empty _ major hmajor =>
      obtain rfl | rfl := hmajor
      · obtain ⟨vs, hread, rfl⟩ := decodeValue_array (by decide) h
        rw [← List.nil_append rest] at hread
        obtain ⟨rfl, hlength, -⟩ := ih.items (.nil : Items depth 0 []) (Nat.two_pow_pos 64) hread
        obtain rfl := List.length_eq_zero_iff.1 hlength
        exact ⟨rfl, rfl, ⟨by decide, trivial⟩, Nat.zero_le _⟩
      · obtain ⟨es, hread, rfl⟩ := decodeValue_map (by decide) h
        rw [← List.nil_append rest] at hread
        obtain ⟨rfl, hlength, -⟩ := ih.entries (n := 0) (.nil : Items depth 0 []) (Nat.two_pow_pos 64) hread
        obtain rfl := List.length_eq_zero_iff.1 hlength
        exact ⟨rfl, rfl, ⟨by decide, trivial⟩, Nat.zero_le _⟩
  | @array depth n items hpos hn hitems =>
      rw [List.append_assoc] at h
      rw [List.length_append] at hlen
      obtain ⟨vs, hread, rfl⟩ := decodeValue_array hn h
      obtain ⟨rfl, rfl, rfl, hencodable, hdepth⟩ := ih.items hitems (by omega) hread
      exact ⟨rfl, rfl, ⟨hn, hencodable⟩, depth_array_le hdepth⟩
  | @map depth n items hpos hn hitems =>
      rw [List.append_assoc] at h
      rw [List.length_append] at hlen
      have hcount := hitems.count_le
      obtain ⟨es, hread, rfl⟩ := decodeValue_map hn h
      obtain ⟨rfl, rfl, rfl, hencodable, hdepth⟩ := ih.entries hitems (by omega) hread
      exact ⟨rfl, rfl, ⟨by omega, hencodable⟩, depth_map_le hdepth⟩

theorem items_succ (ih : ReadsGrammar fuel) {vs : List Value} (hitems : Items depth n bs)
    (hlen : bs.length < 2 ^ 64) (h : decodeItems (fuel + 1) n (bs ++ rest) = some (vs, rest')) :
    rest' = rest ∧ vs.length = n ∧ encodeItems vs = bs ∧ ItemsEncodable vs ∧ itemsDepth vs ≤ depth := by
  cases hitems with
  | nil =>
      cases h
      exact ⟨rfl, rfl, rfl, trivial, Nat.zero_le _⟩
  | @cons _ count item items hitem hitems =>
      rw [decodeItems, List.append_assoc] at h
      rw [List.length_append] at hlen
      obtain ⟨⟨v, tail⟩, hread, htail⟩ := Option.bind_eq_some_iff.1 h
      have hv := ih.value hitem (by omega) hread
      obtain ⟨⟨vs', last⟩, hreads, hvs⟩ := Option.bind_eq_some_iff.1 htail
      rw [hv.rest_eq] at hreads
      obtain ⟨rfl, rfl, rfl, hencodable, hdepth⟩ := ih.items hitems (by omega) hreads
      cases hvs
      refine ⟨rfl, rfl, ?_, ⟨hv.encodable, hencodable⟩, max_le hv.depth_le hdepth⟩
      rw [encodeItems, hv.encode_eq]

theorem entries_succ (ih : ReadsGrammar fuel) {es : List (Value × Value)} (hitems : Items depth (n * 2) bs)
    (hlen : bs.length < 2 ^ 64) (h : decodeEntries (fuel + 1) n (bs ++ rest) = some (es, rest')) :
    rest' = rest ∧ es.length = n ∧ encodeEntries es = bs ∧ EntriesEncodable es ∧
      entriesDepth es ≤ depth := by
  cases n with
  | zero =>
      rw [Nat.zero_mul, items_zero] at hitems
      subst hitems
      cases h
      exact ⟨rfl, rfl, rfl, trivial, Nat.zero_le _⟩
  | succ n =>
      rw [Nat.succ_mul, Cbor.items_succ] at hitems
      obtain ⟨key, _, rfl, hkey, hitems⟩ := hitems
      obtain ⟨value, items, rfl, hvalue, hitems⟩ := Cbor.items_succ.1 hitems
      rw [decodeEntries, List.append_assoc, List.append_assoc] at h
      rw [List.length_append, List.length_append] at hlen
      obtain ⟨⟨k, behindKey⟩, hreadKey, hbehindKey⟩ := Option.bind_eq_some_iff.1 h
      have hk := ih.value hkey (by omega) hreadKey
      obtain ⟨⟨v, behind⟩, hread, hbehind⟩ := Option.bind_eq_some_iff.1 hbehindKey
      rw [hk.rest_eq] at hread
      have hv := ih.value hvalue (by omega) hread
      obtain ⟨⟨es', last⟩, hreads, hes⟩ := Option.bind_eq_some_iff.1 hbehind
      rw [hv.rest_eq] at hreads
      obtain ⟨rfl, rfl, rfl, hencodable, hdepth⟩ := ih.entries hitems (by omega) hreads
      cases hes
      refine ⟨rfl, rfl, ?_, ⟨hk.encodable, hv.encodable, hencodable⟩,
        max_le (max_le hk.depth_le hv.depth_le) hdepth⟩
      rw [encodeEntries, hk.encode_eq, hv.encode_eq]

end ReadsGrammar

/-- Reading bytes of the grammar; the induction is on the fuel the three
readers share. -/
theorem decode_grammar (fuel : Nat) : ReadsGrammar fuel := by
  induction fuel with
  | zero =>
      constructor
      · intro _ _ _ _ _ _ _ h
        cases h
      · intro _ _ _ _ _ _ _ _ h
        cases h
      · intro _ _ _ _ _ _ _ _ h
        cases h
  | succ fuel ih => exact ⟨ih.value_succ, ih.items_succ, ih.entries_succ⟩

/-- What is read from exactly one item of the grammar encodes to it. -/
theorem decode_item {depth : Nat} {bs : List UInt8} (hitem : Item depth bs)
    (hlen : bs.length < 2 ^ 64) {v : Value} {rest : List UInt8} (h : decode bs = some (v, rest)) :
    ReadBack depth bs [] v rest := by
  rw [decode, ← List.append_nil bs] at h
  exact (decode_grammar _).value hitem hlen (by simpa using h)

theorem readArgument_eq_some {info n : Nat} {bs rest : List UInt8}
    (h : readArgument info bs = some (n, rest)) : n < 2 ^ 64 ∧ rest.length ≤ bs.length := by
  rw [readArgument] at h
  dsimp only at h
  have hwide : (if info = 24 then 1 else if info = 25 then 2 else if info = 26 then 4 else 8) ≤ 8 := by
    split_ifs <;> decide
  generalize (if info = 24 then 1 else if info = 25 then 2 else if info = 26 then 4 else 8) = width
    at h hwide
  split_ifs at h with hsmall hwidth
  · obtain ⟨rfl, rfl⟩ := Prod.mk.inj (Option.some.inj h)
    exact ⟨by omega, le_rfl⟩
  · obtain ⟨rfl, rfl⟩ := Prod.mk.inj (Option.some.inj h)
    have hlt := ofBytes_lt (bs.take width)
    rw [List.length_take_of_le hwidth.2] at hlt
    have hpow : (256 : Nat) ^ width ≤ 256 ^ 8 := Nat.pow_le_pow_right (by decide) hwide
    refine ⟨by omega, ?_⟩
    rw [List.length_drop]
    omega

theorem readBytes_eq_some {n : Nat} {bs content rest : List UInt8}
    (h : readBytes n bs = some (content, rest)) : content.length = n ∧ n + rest.length = bs.length := by
  rw [readBytes] at h
  split at h
  next hle =>
    cases h
    rw [List.length_take_of_le hle, List.length_drop]
    omega
  next => cases h

structure ReadsWritable (fuel : Nat) : Prop where
  value : ∀ {bs v rest}, bs.length < 2 ^ 63 → decodeValue fuel bs = some (v, rest) →
    v.Encodable ∧ rest.length < bs.length
  items : ∀ {n bs vs rest}, bs.length < 2 ^ 63 → decodeItems fuel n bs = some (vs, rest) →
    ItemsEncodable vs ∧ vs.length + rest.length ≤ bs.length
  entries : ∀ {n bs es rest}, bs.length < 2 ^ 63 → decodeEntries fuel n bs = some (es, rest) →
    EntriesEncodable es ∧ es.length + rest.length ≤ bs.length

namespace ReadsWritable

variable {fuel n : Nat} {bs rest : List UInt8}

theorem value_succ (ih : ReadsWritable fuel) {v : Value} (hlen : bs.length < 2 ^ 63)
    (h : decodeValue (fuel + 1) bs = some (v, rest)) : v.Encodable ∧ rest.length < bs.length := by
  cases bs with
  | nil => cases h
  | cons b bs =>
      rw [List.length_cons] at hlen ⊢
      rw [decodeValue] at h
      obtain ⟨⟨n, tail⟩, hread, h⟩ := Option.bind_eq_some_iff.1 h
      obtain ⟨hn, htail⟩ := readArgument_eq_some hread
      dsimp only at h
      split_ifs at h
      · cases h
        exact ⟨⟨by omega, by omega⟩, by omega⟩
      · cases h
        exact ⟨⟨by omega, by omega⟩, by omega⟩
      · obtain ⟨⟨content, last⟩, hcontent, hv⟩ := Option.bind_eq_some_iff.1 h
        obtain ⟨hlength, hrest⟩ := readBytes_eq_some hcontent
        cases hv
        dsimp only
        refine ⟨?_, by omega⟩
        rw [Value.Encodable]
        omega
      · obtain ⟨⟨content, last⟩, hcontent, htext⟩ := Option.bind_eq_some_iff.1 h
        obtain ⟨hlength, hrest⟩ := readBytes_eq_some hcontent
        obtain ⟨s, hs, hv⟩ := Option.bind_eq_some_iff.1 htext
        have hutf8 : (utf8 s).length = content.length := congrArg List.length (utf8_of_fromUTF8 hs)
        cases hv
        dsimp only
        refine ⟨?_, by omega⟩
        rw [Value.Encodable]
        omega
      · obtain ⟨⟨items, last⟩, hitems, hv⟩ := Option.bind_eq_some_iff.1 h
        obtain ⟨hencodable, hcount⟩ := ih.items (by omega) hitems
        cases hv
        dsimp only
        exact ⟨⟨by omega, hencodable⟩, by omega⟩
      · obtain ⟨⟨entries, last⟩, hentries, hv⟩ := Option.bind_eq_some_iff.1 h
        obtain ⟨hencodable, hcount⟩ := ih.entries (by omega) hentries
        cases hv
        dsimp only
        exact ⟨⟨by omega, hencodable⟩, by omega⟩

theorem items_succ (ih : ReadsWritable fuel) {vs : List Value} (hlen : bs.length < 2 ^ 63)
    (h : decodeItems (fuel + 1) n bs = some (vs, rest)) :
    ItemsEncodable vs ∧ vs.length + rest.length ≤ bs.length := by
  cases n with
  | zero =>
      cases h
      exact ⟨trivial, by simp⟩
  | succ n =>
      rw [decodeItems] at h
      obtain ⟨⟨v, tail⟩, hv, htail⟩ := Option.bind_eq_some_iff.1 h
      obtain ⟨hencodable, hshort⟩ := ih.value hlen hv
      obtain ⟨⟨vs, last⟩, hvs, hlast⟩ := Option.bind_eq_some_iff.1 htail
      obtain ⟨hrest, hcount⟩ := ih.items (by omega) hvs
      cases hlast
      exact ⟨⟨hencodable, hrest⟩, by rw [List.length_cons]; omega⟩

theorem entries_succ (ih : ReadsWritable fuel) {es : List (Value × Value)} (hlen : bs.length < 2 ^ 63)
    (h : decodeEntries (fuel + 1) n bs = some (es, rest)) :
    EntriesEncodable es ∧ es.length + rest.length ≤ bs.length := by
  cases n with
  | zero =>
      cases h
      exact ⟨trivial, by simp⟩
  | succ n =>
      rw [decodeEntries] at h
      obtain ⟨⟨k, behindKey⟩, hk, hbehindKey⟩ := Option.bind_eq_some_iff.1 h
      obtain ⟨hkey, hkeyShort⟩ := ih.value hlen hk
      obtain ⟨⟨v, tail⟩, hv, htail⟩ := Option.bind_eq_some_iff.1 hbehindKey
      obtain ⟨hvalue, hshort⟩ := ih.value (by omega) hv
      obtain ⟨⟨es, last⟩, hes, hlast⟩ := Option.bind_eq_some_iff.1 htail
      obtain ⟨hrest, hcount⟩ := ih.entries (by omega) hes
      cases hlast
      exact ⟨⟨hkey, hvalue, hrest⟩, by rw [List.length_cons]; omega⟩

end ReadsWritable

/-- Whatever is read can be written; the induction is on the fuel. -/
theorem reads_writable (fuel : Nat) : ReadsWritable fuel := by
  induction fuel with
  | zero =>
      constructor
      · intro _ _ _ _ h
        cases h
      · intro _ _ _ _ _ h
        cases h
      · intro _ _ _ _ _ h
        cases h
  | succ fuel ih => exact ⟨ih.value_succ, ih.items_succ, ih.entries_succ⟩

theorem decode_encodable {bs rest : List UInt8} {v : Value} (hlen : bs.length < 2 ^ 63)
    (h : decode bs = some (v, rest)) : v.Encodable :=
  ((reads_writable _).value hlen h).1

end Reading

end Ruxmsg.Library.Cbor

import Ruxmsg.Canonical
import Ruxmsg.Library.CborGrammar

namespace Ruxmsg

open Library.Cbor

/-- The wide arguments: the additional information of a head, how many bytes
follow it, and the greatest argument that a shorter head can carry. -/
def WideArgument (info width low : Nat) : Prop :=
  (info = 24 ∧ width = 1 ∧ low = 23) ∨ (info = 25 ∧ width = 2 ∧ low = 255) ∨
    (info = 26 ∧ width = 4 ∧ low = 65535) ∨ (info = 27 ∧ width = 8 ∧ low = u32Max)

theorem readCborArgument_wide {info width low : Nat} (hwide : WideArgument info width low)
    (position : Nat) (rest : List UInt8) :
    readCborArgument position rest info =
      if u64Max < position + width then .error .truncatedFrame
      else if rest.length < width then .error .truncatedFrame
      else if low < ofBytes (rest.take width) then
        .ok (ofBytes (rest.take width), position + width, rest.drop width)
      else .error .nonCanonicalEncoding := by
  rw [readCborArgument]
  obtain ⟨rfl, rfl, rfl⟩ | ⟨rfl, rfl, rfl⟩ | ⟨rfl, rfl, rfl⟩ | ⟨rfl, rfl, rfl⟩ := hwide <;>
  · rw [if_neg (by decide)]
    simp only [ok_bind, foldl_shift_eq_ofBytes, decide_eq_true_eq, Nat.succ_le_iff]

theorem readCborArgument_reserved {info : Nat} (hinfo : 28 ≤ info) (position : Nat)
    (rest : List UInt8) : readCborArgument position rest info = .error .nonCanonicalEncoding := by
  rw [readCborArgument]
  rw [if_neg (by omega)]
  split <;> first | omega | rfl

theorem head_wide {info width low : Nat} (hwide : WideArgument info width low) (major : Nat) {n : Nat}
    (hlow : low < n) (hn : n < 256 ^ width) :
    head major n = UInt8.ofNat (major * 32 + info) :: beBytes width n := by
  simp only [WideArgument, u32Max] at hwide
  rw [head]
  obtain ⟨rfl, rfl, rfl⟩ | ⟨rfl, rfl, rfl⟩ | ⟨rfl, rfl, rfl⟩ | ⟨rfl, rfl, rfl⟩ := hwide
  · rw [if_neg (by omega), if_pos (by omega)]
  · rw [if_neg (by omega), if_neg (by omega), if_pos (by omega)]
  · rw [if_neg (by omega), if_neg (by omega), if_neg (by omega), if_pos (by omega)]
  · rw [if_neg (by omega), if_neg (by omega), if_neg (by omega), if_neg (by omega)]

theorem readCborArgument_eq_ok {info position : Nat} {rest : List UInt8} {n position' : Nat}
    {rest' : List UInt8} (h : readCborArgument position rest info = .ok (n, position', rest')) :
    ∃ tail, rest = tail ++ rest' ∧ position' = position + tail.length ∧ n < 2 ^ 64 ∧
      ∀ major, head major n = UInt8.ofNat (major * 32 + info) :: tail := by
  by_cases hsmall : info ≤ 23
  · rw [readCborArgument, if_pos hsmall] at h
    cases h
    refine ⟨[], rfl, rfl, by omega, fun major => ?_⟩
    rw [head, if_pos (by omega)]
  · by_cases hreserved : 28 ≤ info
    · rw [readCborArgument_reserved hreserved] at h
      cases h
    · obtain ⟨width, low, hwide⟩ : ∃ width low, WideArgument info width low := by
        obtain rfl | rfl | rfl | rfl : info = 24 ∨ info = 25 ∨ info = 26 ∨ info = 27 := by omega
        · exact ⟨1, 23, .inl ⟨rfl, rfl, rfl⟩⟩
        · exact ⟨2, 255, .inr (.inl ⟨rfl, rfl, rfl⟩)⟩
        · exact ⟨4, 65535, .inr (.inr (.inl ⟨rfl, rfl, rfl⟩))⟩
        · exact ⟨8, u32Max, .inr (.inr (.inr ⟨rfl, rfl, rfl⟩))⟩
      rw [readCborArgument_wide hwide] at h
      split_ifs at h with hover hshort hlow
      cases h
      have hlen : (rest.take width).length = width := List.length_take_of_le (by omega)
      have hlt := ofBytes_lt (rest.take width)
      have hback := beBytes_ofBytes (rest.take width)
      rw [hlen] at hlt hback
      have hwidth : (256 : Nat) ^ width ≤ 2 ^ 64 := by
        obtain ⟨-, rfl, -⟩ | ⟨-, rfl, -⟩ | ⟨-, rfl, -⟩ | ⟨-, rfl, -⟩ := hwide <;> decide
      refine ⟨rest.take width, (List.take_append_drop _ _).symm, by rw [hlen], by omega, ?_⟩
      intro major
      rw [head_wide hwide major hlow hlt, hback]

theorem byte_split (b : UInt8) : b.toNat >>> 5 < 8 ∧ b.toNat &&& 31 < 32 ∧
    UInt8.ofNat (b.toNat >>> 5 * 32 + (b.toNat &&& 31)) = b := by
  have hb := b.toNat_lt
  have h31 : (31 : Nat) = 2 ^ 5 - 1 := rfl
  rw [Nat.shiftRight_eq_div_pow, h31, Nat.and_two_pow_sub_one_eq_mod]
  refine ⟨by omega, by omega, ?_⟩
  have hsum : b.toNat / 2 ^ 5 * 32 + b.toNat % 2 ^ 5 = b.toNat := by omega
  rw [hsum, UInt8.ofNat_toNat]

/-- What one head has announced: an item that is complete, or a container
with items to come. -/
inductive Announced (containers : Nat) (taken : List UInt8) : (items : Nat) → Prop
  | complete (h : ∀ depth, Item depth taken) : Announced containers taken 0
  | array {n : Nat} (hpos : 0 < n) (hn : n < 2 ^ 64) (hroom : containers < maxCborNesting)
      (h : taken = head 4 n) : Announced containers taken n
  | map {n : Nat} (hpos : 0 < n) (hn : n * 2 < 2 ^ 64) (hroom : containers < maxCborNesting)
      (h : taken = head 5 n) : Announced containers taken (n * 2)

theorem scanHead_eq_ok {position containers : Nat} {rest rest' : List UInt8} {position' items : Nat}
    (h : scanHead position rest containers = .ok (position', rest', items)) :
    ∃ taken, rest = taken ++ rest' ∧ 0 < taken.length ∧ position' = position + taken.length ∧
      Announced containers taken items := by
  cases rest with
  | nil => cases h
  | cons initial rest =>
      rw [scanHead] at h
      dsimp only at h
      obtain ⟨⟨n, p, tail⟩, hread, h⟩ := bind_eq_ok.1 h
      obtain ⟨argument, rfl, rfl, hn, hhead⟩ := readCborArgument_eq_ok hread
      obtain ⟨hmajor, hinfo, hbyte⟩ := byte_split initial
      have hhead := hhead (initial.toNat >>> 5)
      rw [hbyte] at hhead
      generalize initial.toNat >>> 5 = major at hmajor hhead h
      have hsplit : initial :: (argument ++ tail) = head major n ++ tail := by rw [hhead]; rfl
      have hlen : (head major n).length = argument.length + 1 := by rw [hhead]; rfl
      have hpos := length_head_pos major n
      dsimp only at h
      generalize hannounced : (if major = 4 then n else n * 2) = announced at h
      split_ifs at h with hint hstring hover hshort hcontainer hmany hsome hdeep
      · cases h
        exact ⟨head major n, hsplit, hpos, by omega, .complete fun _ => .integer hint hn⟩
      · cases h
        have htake : (tail.take n).length = n := List.length_take_of_le (by omega)
        refine ⟨head major n ++ tail.take n, ?_, ?_, ?_, .complete fun depth => ?_⟩
        · rw [hsplit, List.append_assoc, List.take_append_drop]
        · rw [List.length_append]
          omega
        · rw [List.length_append, htake]
          omega
        · have hitem : Item depth (head major (tail.take n).length ++ tail.take n) :=
            .string (by omega) (by omega)
          rwa [htake] at hitem
      · cases h
        refine ⟨head major n, hsplit, hpos, by omega, ?_⟩
        by_cases harray : major = 4
        · rw [if_pos harray] at hannounced
          subst harray hannounced
          exact .array hsome hn (Nat.lt_of_not_le hdeep) rfl
        · obtain rfl : major = 5 := by omega
          rw [if_neg harray] at hannounced
          subst hannounced
          simp only [u64Max] at hmany
          exact .map (by omega) (by omega) (Nat.lt_of_not_le hdeep) rfl
      · cases h
        refine ⟨head major n, hsplit, hpos, by omega, .complete fun depth => ?_⟩
        obtain rfl : n = 0 := by
          split_ifs at hannounced <;> omega
        exact .empty (by omega)

theorem scanHead_container {major n position containers : Nat} {rest : List UInt8}
    (hm : major = 4 ∨ major = 5) (hn : n < 2 ^ 64)
    (hp : position + (head major n).length ≤ u64Max) :
    scanHead position (head major n ++ rest) containers =
      let items := if major = 4 then n else n * 2
      if u64Max < items then .error .nonCanonicalEncoding
      else if 0 < items then
        if maxCborNesting ≤ containers then .error .nonCanonicalEncoding
        else .ok (position + (head major n).length, rest, items)
      else .ok (position + (head major n).length, rest, 0) := by
  obtain ⟨b, tail, hhead, hmajor, hread⟩ :=
    readCborArgument_head major n position rest (by omega) hn hp
  rw [hhead, List.cons_append, scanHead]
  dsimp only
  rw [hread, hmajor, ok_bind, hhead]
  dsimp only
  rw [if_neg (by omega), if_neg (by omega), if_pos (by omega)]

abbrev maxNested : Nat := maxCborNesting - 1

def pushed (items count : Nat) (below : List Nat) : List Nat :=
  if 0 < items then items :: count :: below else count :: below

/-- A scanned head and what is then pending make up what was pending before. -/
theorem Announced.pending {count items : Nat} {below : List Nat} {taken rest : List UInt8}
    (h : Announced (below.length + 1) taken items)
    (hrest : Pending maxNested (pushed items count below) rest) :
    Pending maxNested ((count + 1) :: below) (taken ++ rest) := by
  have hmax : maxCborNesting = 32 := rfl
  have hnested : maxNested = 31 := rfl
  rw [pending_succ]
  cases h with
  | complete hitem => exact ⟨taken, rest, rfl, hitem _, hrest⟩
  | array hpos hn hroom htaken =>
      obtain ⟨depth, hdepth⟩ : ∃ depth, depth + 1 = maxNested - below.length :=
        ⟨maxNested - below.length - 1, by omega⟩
      rw [pushed, if_pos hpos, pending_open (by omega) hdepth] at hrest
      obtain ⟨items, rest, rfl, hitems, hrest⟩ := hrest
      refine ⟨taken ++ items, rest, (List.append_assoc _ _ _).symm, ?_, hrest⟩
      rw [htaken, ← hdepth]
      exact .array hpos hn hitems
  | map hpos hn hroom htaken =>
      obtain ⟨depth, hdepth⟩ : ∃ depth, depth + 1 = maxNested - below.length :=
        ⟨maxNested - below.length - 1, by omega⟩
      rw [pushed, if_pos (by omega), pending_open (by omega) hdepth] at hrest
      obtain ⟨items, rest, rfl, hitems, hrest⟩ := hrest
      refine ⟨taken ++ items, rest, (List.append_assoc _ _ _).symm, ?_, hrest⟩
      rw [htaken, ← hdepth]
      exact .map hpos (by omega) hitems

/-- An item of the grammar gets past the scan of its head, and leaves its own
items pending. -/
theorem scanHead_of_item {count position : Nat} {below : List Nat} {item rest : List UInt8}
    (hitem : Item (maxNested - below.length) item) (hrest : Pending maxNested (count :: below) rest)
    (hp : position + (item ++ rest).length ≤ u64Max) :
    ∃ position' rest' items, scanHead position (item ++ rest) (below.length + 1) =
      .ok (position', rest', items) ∧ Pending maxNested (pushed items count below) rest' := by
  have hmax : maxCborNesting = 32 := rfl
  have hnested : maxNested = 31 := rfl
  have hu64 : u64Max = 18446744073709551615 := rfl
  rw [List.length_append] at hp
  generalize hdepth : maxNested - below.length = depth at hitem
  cases hitem with
  | integer hmajor hn =>
      exact ⟨_, rest, 0, scanHead_integer _ _ _ _ _ hmajor hn (by omega), hrest⟩
  | string hmajor hn =>
      rw [List.append_assoc]
      exact ⟨_, rest, 0, scanHead_string _ _ _ _ _ hmajor hn (by omega), hrest⟩
  | @empty depth major hmajor =>
      refine ⟨position + (head major 0).length, rest, 0, ?_, hrest⟩
      rw [scanHead_container hmajor (by omega) (by omega)]
      simp only [Nat.zero_mul, ite_self, lt_irrefl, if_false, Nat.not_lt_zero]
  | @array depth n items hpos hn hitems =>
      have hcount := hitems.count_le
      rw [List.length_append] at hp
      refine ⟨position + (head 4 n).length, items ++ rest, n, ?_, ?_⟩
      · rw [List.append_assoc, scanHead_container (.inl rfl) hn (by omega)]
        simp only [if_true]
        rw [if_neg (by omega), if_pos hpos, if_neg (by omega)]
      · rw [pushed, if_pos hpos, pending_open (by omega) hdepth.symm]
        exact ⟨items, rest, rfl, hitems, hrest⟩
  | @map depth n items hpos hn hitems =>
      have hcount := hitems.count_le
      rw [List.length_append] at hp
      refine ⟨position + (head 5 n).length, items ++ rest, n * 2, ?_, ?_⟩
      · rw [List.append_assoc, scanHead_container (.inr rfl) hn (by omega)]
        have hmap : (if (5 : Nat) = 4 then n else n * 2) = n * 2 := rfl
        simp only [hmap]
        rw [if_neg (by omega), if_pos (by omega), if_neg (by omega)]
      · rw [pushed, if_pos (by omega), pending_open (by omega) hdepth.symm]
        exact ⟨items, rest, rfl, hitems, hrest⟩

theorem length_pushed {items count : Nat} {below : List Nat} {taken : List UInt8}
    (h : Announced (below.length + 1) taken items) (hbelow : below.length < maxCborNesting) :
    (pushed items count below).length ≤ maxCborNesting := by
  have hmax : maxCborNesting = 32 := rfl
  rw [pushed]
  split
  · rw [List.length_cons, List.length_cons]
    cases h with
    | complete => omega
    | array hpos hn hroom => omega
    | map hpos hn hroom => omega
  · rw [List.length_cons]
    omega

theorem scanItems_succ (rounds position : Nat) (rest : List UInt8) (remaining : List Nat) :
    scanItems (rounds + 1) position rest remaining =
      match remaining.dropWhile (· = 0) with
      | [] => .ok position
      | count :: below =>
          scanHead position rest (below.length + 1) >>= fun (position, rest, items) =>
            scanItems rounds position rest (pushed items (count - 1) below) := by
  rw [scanItems]
  rfl

theorem top_pos {remaining below : List Nat} {count : Nat}
    (h : remaining.dropWhile (· = 0) = count :: below) : 0 < count := by
  have hne : remaining.dropWhile (fun n => decide (n = 0)) ≠ [] := by simp [h]
  have hhead := List.head_dropWhile_not (fun n => decide (n = 0)) hne
  simp only [h, List.head_cons, decide_eq_false_iff_not] at hhead
  exact Nat.pos_of_ne_zero hhead

/-- The scan gets to the end of the input exactly when the input is what the
stack asks for; the induction is on the rounds. -/
theorem scanItems_eq_ok (rounds position : Nat) (rest : List UInt8) (remaining : List Nat)
    (hrounds : rest.length < rounds) (hp : position + rest.length ≤ u64Max)
    (hremaining : remaining.length ≤ maxCborNesting) :
    scanItems rounds position rest remaining = .ok (position + rest.length) ↔
      Pending maxNested remaining rest := by
  induction rounds generalizing position rest remaining with
  | zero => exact absurd hrounds (Nat.not_lt_zero _)
  | succ rounds ih =>
      rw [scanItems_succ, ← pending_dropWhile]
      cases hdrop : remaining.dropWhile (· = 0) with
      | nil =>
          rw [pending_nil, Except.ok.injEq, ← List.length_eq_zero_iff]
          omega
      | cons count below =>
          have hsuffix := (List.dropWhile_suffix (fun n : Nat => decide (n = 0)) (l := remaining)).length_le
          rw [hdrop, List.length_cons] at hsuffix
          obtain ⟨count, rfl⟩ := Nat.exists_eq_succ_of_ne_zero (top_pos hdrop).ne'
          dsimp only
          rw [Nat.succ_eq_add_one, Nat.add_sub_cancel]
          constructor
          · intro h
            obtain ⟨⟨position', rest', items⟩, hhead, h⟩ := bind_eq_ok.1 h
            obtain ⟨taken, rfl, hpos, rfl, hannounced⟩ := scanHead_eq_ok hhead
            dsimp only at h
            rw [List.length_append] at hrounds hp h
            rw [← Nat.add_assoc, ih _ _ _ (by omega) (by omega)
              (length_pushed hannounced (by omega))] at h
            exact hannounced.pending h
          · intro h
            obtain ⟨item, rest, rfl, hitem, hrest⟩ := pending_succ.1 h
            obtain ⟨position', rest', items, hhead, hpending⟩ := scanHead_of_item hitem hrest hp
            obtain ⟨taken, htaken, hpos, rfl, hannounced⟩ := scanHead_eq_ok hhead
            have hlen := (congrArg List.length htaken).trans List.length_append
            rw [hhead, ok_bind, hlen]
            dsimp only
            rw [← Nat.add_assoc]
            exact (ih _ _ _ (by omega) (by omega) (length_pushed hannounced (by omega))).2 hpending

/-- More rounds than bytes change nothing: the scan has ended by then. -/
theorem scanItems_add (rounds extra position : Nat) (rest : List UInt8) (remaining : List Nat)
    (hrounds : rest.length < rounds) : scanItems (rounds + extra) position rest remaining =
      scanItems rounds position rest remaining := by
  induction rounds generalizing position rest remaining with
  | zero => exact absurd hrounds (Nat.not_lt_zero _)
  | succ rounds ih =>
      rw [Nat.succ_add, scanItems_succ, scanItems_succ]
      split
      next => rfl
      next count below hdrop =>
        cases hhead : scanHead position rest (below.length + 1) with
        | error e => rfl
        | ok scanned =>
            obtain ⟨position', rest', items⟩ := scanned
            obtain ⟨taken, rfl, hpos, -, -⟩ := scanHead_eq_ok hhead
            rw [List.length_append] at hrounds
            exact ih _ _ _ (by omega)

structure ScanState where
  position : Nat
  rest : List UInt8
  remaining : List Nat

/-- One round of the loop, `none` when no item is left to scan. -/
def ScanState.round (s : ScanState) : Result (Option ScanState) :=
  match s.remaining.dropWhile (· = 0) with
  | [] => .ok none
  | count :: below => do
      let (position, rest, items) ← scanHead s.position s.rest (below.length + 1)
      return some ⟨position, rest, pushed items (count - 1) below⟩

theorem scanItems_round (rounds : Nat) (s : ScanState) :
    scanItems (rounds + 1) s.position s.rest s.remaining =
      s.round >>= fun next =>
        match next with
        | none => .ok s.position
        | some s' => scanItems rounds s'.position s'.rest s'.remaining := by
  rw [scanItems_succ, ScanState.round]
  split
  next => rfl
  next count below _ =>
    cases scanHead s.position s.rest (below.length + 1) with
    | error e => rfl
    | ok scanned => rfl

/-- The states of the scan of a payload, by the number of items started. -/
inductive Scans (payload : List UInt8) : Nat → ScanState → Prop
  | start : Scans payload 0 ⟨0, payload, [1]⟩
  | round {n : Nat} {s s' : ScanState} (h : Scans payload n s) (hround : s.round = .ok (some s')) :
      Scans payload (n + 1) s'

structure Scanned (payload : List UInt8) (n : Nat) (s : ScanState) : Prop where
  started : n ≤ s.position
  within : s.position ≤ payload.length
  rest_eq : s.rest = payload.drop s.position
  nested : s.remaining.length ≤ maxCborNesting
  counts : ∀ count ∈ s.remaining, count ≤ u64Max

theorem Announced.items_le {containers items : Nat} {taken : List UInt8}
    (h : Announced containers taken items) : items ≤ u64Max := by
  have hu64 : u64Max = 18446744073709551615 := rfl
  cases h with
  | complete => exact Nat.zero_le _
  | array hpos hn => omega
  | map hpos hn => omega

theorem Scanned.round {payload : List UInt8} {n : Nat} {s s' : ScanState} (h : Scanned payload n s)
    (hround : s.round = .ok (some s')) : Scanned payload (n + 1) s' := by
  rw [ScanState.round] at hround
  split at hround
  next => cases hround
  next count below hdrop =>
    obtain ⟨⟨position, rest, items⟩, hhead, hround⟩ := bind_eq_ok.1 hround
    obtain rfl := Option.some.inj (pure_eq_ok.1 hround)
    obtain ⟨taken, hrest, hpos, rfl, hannounced⟩ := scanHead_eq_ok hhead
    have hsuffix := List.dropWhile_suffix (fun n : Nat => decide (n = 0)) (l := s.remaining)
    rw [hdrop] at hsuffix
    have hnested := h.nested
    have hlen := hsuffix.length_le
    rw [List.length_cons] at hlen
    have hwithin := h.within
    have hstarted := h.started
    have hdropped := h.rest_eq
    have hbytes := congrArg List.length hrest
    rw [hdropped, List.length_drop, List.length_append] at hbytes
    refine ⟨by dsimp only; omega, by dsimp only; omega, ?_,
      length_pushed hannounced (by omega), ?_⟩
    · dsimp only
      rw [← List.drop_drop, ← hdropped, hrest, List.drop_left]
    · intro c hc
      have hbelow : ∀ c ∈ count :: below, c ≤ u64Max := fun c hc =>
        h.counts c (hsuffix.subset hc)
      have hcount := hbelow count List.mem_cons_self
      have hlower : ∀ c ∈ (count - 1) :: below, c ≤ u64Max := by
        intro c hc
        obtain rfl | hc := List.mem_cons.1 hc
        · omega
        · exact hbelow c (List.mem_cons_of_mem _ hc)
      dsimp only [pushed] at hc
      split at hc
      · obtain rfl | hc := List.mem_cons.1 hc
        · exact hannounced.items_le
        · exact hlower c hc
      · exact hlower c hc

theorem Scans.scanned {payload : List UInt8} {n : Nat} {s : ScanState} (h : Scans payload n s) :
    Scanned payload n s := by
  induction h with
  | start => exact ⟨le_rfl, Nat.zero_le _, rfl, by simp [maxCborNesting], by simp [u64Max]⟩
  | round h hround ih => exact ih.round hround

/-- What the scan accepts is one item of its grammar and nothing behind it. -/
theorem validateCborStructure_eq_ok {payload : List UInt8} (hlen : payload.length ≤ u64Max) :
    validateCborStructure payload = .ok () ↔ Item 31 payload := by
  have hscan := scanItems_eq_ok (payload.length + 2) 0 payload [1] (by omega) (by omega) (by decide)
  have hroot : Pending maxNested [1] payload ↔ Item 31 payload := by
    have hnested : maxNested - ([] : List Nat).length = 31 := rfl
    rw [pending_cons, hnested]
    simp [items_one]
  rw [← hroot, ← hscan, validateCborStructure, bind_eq_ok]
  constructor
  · rintro ⟨position, h, hend⟩
    split at hend
    next heq => rw [h, heq, Nat.zero_add]
    next => cases hend
  · intro h
    exact ⟨_, h, by rw [Nat.zero_add, if_pos rfl]⟩

/-- The scan accepts its grammar, ends, and stays within its bounds, on every
payload that a slice can hold. -/
theorem structural_scan (payload : List UInt8) (hlen : payload.length ≤ u64Max) :
    (validateCborStructure payload = .ok () ↔ Item 31 payload) ∧
    (∀ extra, scanItems (payload.length + 2 + extra) 0 payload [1] =
      scanItems (payload.length + 2) 0 payload [1]) ∧
    (∀ rounds (s : ScanState), scanItems (rounds + 1) s.position s.rest s.remaining =
      s.round >>= fun next =>
        match next with
        | none => .ok s.position
        | some s' => scanItems rounds s'.position s'.rest s'.remaining) ∧
    ∀ n s, Scans payload n s → n ≤ payload.length ∧ s.position ≤ payload.length ∧
      s.rest = payload.drop s.position ∧ s.remaining.length ≤ 32 ∧
        ∀ count ∈ s.remaining, count ≤ u64Max := by
  refine ⟨validateCborStructure_eq_ok hlen, fun extra => scanItems_add _ _ _ _ _ (by omega),
    scanItems_round, ?_⟩
  intro n s h
  obtain ⟨hstarted, hwithin, hrest, hnested, hcounts⟩ := h.scanned
  exact ⟨hstarted.trans hwithin, hwithin, hrest, hnested, hcounts⟩

/-- A map with a nested array, and a head that declares more than it has. -/
theorem structural_scan_sample : Item 31 [161, 0, 130, 1, 2] ∧
    ¬ Item 31 [155, 255, 255, 255, 255, 255, 255, 255, 255] := by
  have haccepted : validateCborStructure [161, 0, 130, 1, 2] = .ok () := rfl
  refine ⟨(structural_scan _ (by decide)).1.1 haccepted, ?_⟩
  intro hitem
  cases (structural_scan _ (by decide)).1.2 hitem

end Ruxmsg

import Ruxmsg.Wire

namespace Ruxmsg

open Library.Cbor

def Bytes.at {n : Nat} (b : Bytes n) (i : Fin n) : UInt8 := b.val.get (i.cast b.property.symm)

def Frame.encode (frame : Frame) : Result (List UInt8) := do
  let length ← checkLength frame.messageType (← payloadLength frame.payload)
  return [UInt8.ofNat frame.version.toNat, UInt8.ofNat frame.messageType.toNat] ++
    beBytes 4 length ++ frame.payload

def Frame.parseHeader (header : Bytes headerSize) :
    Result (ProtocolVersion × MessageType × Nat) := do
  let version ← ProtocolVersion.tryFrom (header.at ⟨0, by decide⟩).toNat
  let messageType ← MessageType.tryFrom (header.at ⟨1, by decide⟩).toNat
  let declared := ofBytes (header.val.drop 2)
  let _ ← checkLength messageType declared
  return (version, messageType, declared)

theorem length_take_header {input : List UInt8} (h : ¬ input.length < headerSize) :
    (input.take headerSize).length = headerSize := by
  rw [List.length_take]
  omega

def Frame.decode (input : List UInt8) : Result (Frame × Nat) :=
  if h : input.length < headerSize then .error .truncatedFrame
  else do
    let (version, messageType, declared) ←
      Frame.parseHeader ⟨input.take headerSize, length_take_header h⟩
    let total := headerSize + declared
    if u64Max < total then .error (.invalidFrameLength declared)
    else if input.length < total then .error .truncatedFrame
    else return ({ version, messageType, payload := (input.take total).drop headerSize }, total)

@[simp] theorem ProtocolVersion.tryFrom_toNat (version : ProtocolVersion) :
    ProtocolVersion.tryFrom version.toNat = .ok version := by
  cases version
  rfl

theorem ProtocolVersion.toNat_lt (version : ProtocolVersion) : version.toNat < 256 := by
  cases version
  decide

theorem ProtocolVersion.tryFrom_eq_ok {value : Nat} {version : ProtocolVersion} :
    ProtocolVersion.tryFrom value = .ok version ↔ value = version.toNat := by
  constructor
  · intro h
    rw [ProtocolVersion.tryFrom.eq_def] at h
    split at h
    · cases version
      rfl
    · cases h
  · intro h
    rw [h, ProtocolVersion.tryFrom_toNat]

@[simp] theorem MessageType.tryFrom_toNat (messageType : MessageType) :
    MessageType.tryFrom messageType.toNat = .ok messageType := by
  cases messageType <;> rfl

theorem MessageType.toNat_lt (messageType : MessageType) : messageType.toNat < 256 := by
  cases messageType <;> decide

theorem MessageType.tryFrom_eq_ok {value : Nat} {messageType : MessageType} :
    MessageType.tryFrom value = .ok messageType ↔ value = messageType.toNat := by
  constructor
  · intro h
    rw [MessageType.tryFrom.eq_def] at h
    split at h <;> cases h <;> rfl
  · intro h
    rw [h, MessageType.tryFrom_toNat]

theorem MessageType.maxPayload_le (messageType : MessageType) :
    messageType.maxPayload ≤ maxFrameSize := by
  cases messageType <;> decide

theorem payloadLength_eq_ok {payload : List UInt8} {length : Nat} :
    payloadLength payload = .ok length ↔ length = payload.length ∧ payload.length ≤ u32Max := by
  rw [payloadLength]
  split
  next h => simp [h, eq_comm]
  next h => simp [h]

theorem checkLength_eq_ok {messageType : MessageType} {length checked : Nat} :
    checkLength messageType length = .ok checked ↔
      checked = length ∧ length ≤ messageType.maxPayload := by
  have hmax := messageType.maxPayload_le
  rw [checkLength]
  split
  next h =>
    constructor
    · intro hc
      cases hc
    · intro hc
      omega
  next h =>
    rw [frameLength, if_pos (by omega), Except.ok.injEq]
    constructor
    · intro hc
      exact ⟨hc.symm, by omega⟩
    · intro hc
      exact hc.1.symm

theorem Frame.new_eq_ok {messageType : MessageType} {payload : List UInt8} {frame : Frame} :
    Frame.new messageType payload = .ok frame ↔
      frame = ⟨.v1, messageType, payload⟩ ∧ payload.length ≤ messageType.maxPayload := by
  have hmax := messageType.maxPayload_le
  have hu32 : maxFrameSize ≤ u32Max := by decide
  rw [Frame.new]
  simp only [bind_eq_ok, payloadLength_eq_ok, checkLength_eq_ok, pure_eq_ok]
  constructor
  · rintro ⟨_, ⟨rfl, -⟩, _, ⟨rfl, h⟩, rfl⟩
    exact ⟨rfl, h⟩
  · rintro ⟨rfl, h⟩
    exact ⟨_, ⟨rfl, by omega⟩, _, ⟨rfl, h⟩, rfl⟩

/-- The header in front of a payload of `length` bytes. -/
def headerBytes (version : ProtocolVersion) (messageType : MessageType) (length : Nat) :
    List UInt8 :=
  [UInt8.ofNat version.toNat, UInt8.ofNat messageType.toNat] ++ beBytes 4 length

@[simp] theorem length_headerBytes (version : ProtocolVersion) (messageType : MessageType)
    (length : Nat) : (headerBytes version messageType length).length = headerSize := by
  rw [headerBytes, List.length_append, length_beBytes]
  rfl

def Frame.header (frame : Frame) : List UInt8 :=
  headerBytes frame.version frame.messageType frame.payload.length

@[simp] theorem Frame.length_header (frame : Frame) : frame.header.length = headerSize :=
  length_headerBytes _ _ _

theorem Frame.encode_eq_ok {frame : Frame} {encoded : List UInt8} :
    frame.encode = .ok encoded ↔
      encoded = frame.header ++ frame.payload ∧
        frame.payload.length ≤ frame.messageType.maxPayload := by
  have hmax := frame.messageType.maxPayload_le
  have hu32 : maxFrameSize ≤ u32Max := by decide
  rw [Frame.encode, Frame.header, headerBytes]
  simp only [bind_eq_ok, payloadLength_eq_ok, checkLength_eq_ok, pure_eq_ok]
  constructor
  · rintro ⟨_, ⟨rfl, -⟩, _, ⟨rfl, h⟩, rfl⟩
    exact ⟨rfl, h⟩
  · rintro ⟨rfl, h⟩
    exact ⟨_, ⟨rfl, by omega⟩, _, ⟨rfl, h⟩, rfl⟩

theorem UInt8.ofNat_toNat_eq {b : UInt8} {n : Nat} (h : b.toNat = n) : UInt8.ofNat n = b := by
  rw [← h, UInt8.ofNat_toNat]

/-- A header is accepted exactly when it is the one that is written for what
is read from it. -/
theorem Frame.parseHeader_eq_ok {header : Bytes headerSize} {version : ProtocolVersion}
    {messageType : MessageType} {declared : Nat} :
    Frame.parseHeader header = .ok (version, messageType, declared) ↔
      header.val = headerBytes version messageType declared ∧
        declared ≤ messageType.maxPayload := by
  obtain ⟨bs, hbs⟩ := header
  match bs, hbs with
  | a :: b :: length, hlength =>
      have hl : length.length = 4 := by simpa [headerSize] using hlength
      have ha : (Bytes.at (⟨a :: b :: length, hlength⟩ : Bytes headerSize) ⟨0, by decide⟩) = a := rfl
      have hb : (Bytes.at (⟨a :: b :: length, hlength⟩ : Bytes headerSize) ⟨1, by decide⟩) = b := rfl
      have hback := beBytes_ofBytes length
      rw [hl] at hback
      rw [Frame.parseHeader, headerBytes]
      simp only [ha, hb, bind_eq_ok, ProtocolVersion.tryFrom_eq_ok, MessageType.tryFrom_eq_ok,
        checkLength_eq_ok, pure_eq_ok, Prod.mk.injEq, List.drop_succ_cons, List.drop_zero]
      constructor
      · rintro ⟨v, hv, _, ht, _, ⟨rfl, hle⟩, -, rfl, rfl⟩
        have hversion : version = v := by cases version; cases v; rfl
        rw [← hversion] at hv
        rw [UInt8.ofNat_toNat_eq hv, UInt8.ofNat_toNat_eq ht, hback]
        exact ⟨rfl, hle⟩
      · rintro ⟨hheader, hle⟩
        rw [List.cons_append, List.cons_append, List.nil_append, List.cons.injEq,
          List.cons.injEq] at hheader
        obtain ⟨rfl, rfl, rfl⟩ := hheader
        have hmax := messageType.maxPayload_le
        have hsize : maxFrameSize = 1048576 := rfl
        rw [ofBytes_beBytes 4 declared (by omega)]
        refine ⟨version, ?_, messageType, ?_, declared, ⟨rfl, hle⟩, trivial, rfl, rfl⟩
        · exact UInt8.toNat_ofNat_of_lt' version.toNat_lt
        · exact UInt8.toNat_ofNat_of_lt' messageType.toNat_lt

theorem Frame.decode_header {input : List UInt8} {version : ProtocolVersion}
    {messageType : MessageType} {declared : Nat} (hle : declared ≤ messageType.maxPayload)
    (hhead : input.take headerSize = headerBytes version messageType declared) :
    Frame.decode input =
      if input.length < headerSize + declared then .error .truncatedFrame
      else .ok (⟨version, messageType, (input.take (headerSize + declared)).drop headerSize⟩,
        headerSize + declared) := by
  have hmax := messageType.maxPayload_le
  have hover : ¬ u64Max < headerSize + declared := by
    have hsize : maxFrameSize = 1048576 := rfl
    simp only [u64Max, headerSize]
    omega
  have hlong : ¬ input.length < headerSize := by
    have hl := congrArg List.length hhead
    rw [List.length_take, length_headerBytes] at hl
    omega
  have hparse : Frame.parseHeader ⟨input.take headerSize, length_take_header hlong⟩ =
      .ok (version, messageType, declared) := Frame.parseHeader_eq_ok.2 ⟨hhead, hle⟩
  rw [Frame.decode, dif_neg hlong, hparse, ok_bind]
  dsimp only
  rw [if_neg hover]
  rfl

theorem Frame.decode_eq_ok {input : List UInt8} {frame : Frame} {n : Nat} :
    Frame.decode input = .ok (frame, n) ↔
      frame.payload.length ≤ frame.messageType.maxPayload ∧ n = headerSize + frame.payload.length ∧
        frame.header ++ frame.payload <+: input := by
  constructor
  · intro h
    by_cases hshort : input.length < headerSize
    · rw [Frame.decode, dif_pos hshort] at h
      cases h
    · have hparse := h
      rw [Frame.decode, dif_neg hshort, bind_eq_ok] at hparse
      obtain ⟨⟨version, messageType, declared⟩, hparse, -⟩ := hparse
      obtain ⟨hhead, hle⟩ := Frame.parseHeader_eq_ok.1 hparse
      rw [Frame.decode_header hle hhead] at h
      split at h
      · cases h
      next hlong =>
        cases h
        have hpayload : ((input.take (headerSize + declared)).drop headerSize).length = declared := by
          rw [List.length_drop, List.length_take]
          omega
        have hsplit : input.take headerSize ++ (input.take (headerSize + declared)).drop headerSize =
            input.take (headerSize + declared) := by
          have hcut := List.take_append_drop headerSize (input.take (headerSize + declared))
          rwa [List.take_take, Nat.min_eq_left (Nat.le_add_right _ _)] at hcut
        dsimp only [Frame.header]
        rw [hpayload, ← hhead, hsplit]
        exact ⟨hle, rfl, List.take_prefix _ _⟩
  · rintro ⟨hle, rfl, rest, rfl⟩
    have hhead : (frame.header ++ frame.payload ++ rest).take headerSize = frame.header := by
      rw [List.append_assoc]
      exact List.take_left' frame.length_header
    have hwhole : (frame.header ++ frame.payload ++ rest).take (headerSize + frame.payload.length) =
        frame.header ++ frame.payload := by
      apply List.take_left'
      rw [List.length_append, frame.length_header]
    have hlong : ¬ (frame.header ++ frame.payload ++ rest).length <
        headerSize + frame.payload.length := by
      rw [List.length_append, List.length_append, frame.length_header]
      omega
    rw [Frame.decode_header hle hhead, if_neg hlong, hwhole, List.drop_left' frame.length_header]

theorem Frame.decode_take {frame : Frame} (hle : frame.payload.length ≤ frame.messageType.maxPayload)
    {n : Nat} (hn : n < (frame.header ++ frame.payload).length) :
    Frame.decode ((frame.header ++ frame.payload).take n) = .error .truncatedFrame := by
  have hl := List.length_take_of_le hn.le
  rw [List.length_append, frame.length_header] at hn
  by_cases hshort : n < headerSize
  · rw [Frame.decode, dif_pos (by omega)]
  · have hhead : ((frame.header ++ frame.payload).take n).take headerSize = frame.header := by
      rw [List.take_take, Nat.min_eq_left (by omega)]
      exact List.take_left' frame.length_header
    rw [Frame.decode_header hle hhead, if_pos (by omega)]

/-- Frames delimit themselves: an encoding is read back from in front of any
bytes, what is read is an encoding within its limit, and an incomplete
encoding is no frame. -/
theorem frames_delimit_themselves :
    (∀ messageType payload frame, Frame.new messageType payload = .ok frame →
      ∃ encoded, frame.encode = .ok encoded ∧
        ∀ rest, Frame.decode (encoded ++ rest) = .ok (frame, encoded.length)) ∧
    (∀ input frame n, Frame.decode input = .ok (frame, n) →
      n ≤ input.length ∧ frame.encode = .ok (input.take n) ∧
        frame.payload.length ≤ frame.messageType.maxPayload) ∧
    (∀ frame encoded, Frame.encode frame = .ok encoded →
      ∀ cut, cut <+: encoded → cut ≠ encoded → Frame.decode cut = .error .truncatedFrame) := by
  refine ⟨?_, ?_, ?_⟩
  · intro messageType payload frame hnew
    obtain ⟨rfl, hle⟩ := Frame.new_eq_ok.1 hnew
    refine ⟨_, Frame.encode_eq_ok.2 ⟨rfl, hle⟩, fun rest => ?_⟩
    apply Frame.decode_eq_ok.2
    refine ⟨hle, ?_, List.prefix_append _ _⟩
    rw [List.length_append, Frame.length_header]
  · intro input frame n hdecode
    obtain ⟨hle, rfl, rest, rfl⟩ := Frame.decode_eq_ok.1 hdecode
    have hl : (frame.header ++ frame.payload).length = headerSize + frame.payload.length := by
      rw [List.length_append, Frame.length_header]
    refine ⟨?_, ?_, hle⟩
    · rw [List.length_append, hl]
      exact Nat.le_add_right _ _
    · rw [List.take_left' hl]
      exact Frame.encode_eq_ok.2 ⟨rfl, hle⟩
  · intro frame encoded hencode cut hcut hne
    obtain ⟨rfl, hle⟩ := Frame.encode_eq_ok.1 hencode
    have hlt : cut.length < (frame.header ++ frame.payload).length :=
      lt_of_le_of_ne hcut.length_le fun h => hne (hcut.eq_of_length h)
    rw [List.prefix_iff_eq_take.1 hcut]
    exact Frame.decode_take hle hlt

theorem frames_delimit_themselves_close :
    Frame.decode ([1, 5, 0, 0, 0, 3, 161, 1, 0] ++ [1, 5]) =
      .ok (⟨.v1, .close, [161, 1, 0]⟩, 9) ∧
    Frame.encode ⟨.v1, .close, [161, 1, 0]⟩ =
      .ok (([1, 5, 0, 0, 0, 3, 161, 1, 0] ++ [1, 5] : List UInt8).take 9) ∧
    Frame.decode [1, 5, 0, 0] = .error .truncatedFrame := by
  have hnew : Frame.new .close [161, 1, 0] = .ok ⟨.v1, .close, [161, 1, 0]⟩ := by decide
  obtain ⟨encoded, hencode, hdecode⟩ := frames_delimit_themselves.1 _ _ _ hnew
  have hbytes : Frame.encode ⟨.v1, .close, [161, 1, 0]⟩ =
      .ok [1, 5, 0, 0, 0, 3, 161, 1, 0] := by decide
  rw [hbytes] at hencode
  cases hencode
  exact ⟨hdecode [1, 5], (frames_delimit_themselves.2.1 _ _ _ (hdecode [1, 5])).2.1,
    frames_delimit_themselves.2.2 _ _ hbytes [1, 5, 0, 0] ⟨[0, 3, 161, 1, 0], rfl⟩ (by decide)⟩

end Ruxmsg

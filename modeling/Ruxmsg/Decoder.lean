import Ruxmsg.Framing
import Ruxmsg.Task
import Ruxmsg.Library.Stream

namespace Ruxmsg

open Library.Stream

structure FrameDecoder where
  buffer : List UInt8

def DecodeError.ofHeader : Error → DecodeError
  | .unsupportedVersion _ => .unsupportedVersion
  | _ => .malformed

namespace FrameDecoder

def new : FrameDecoder := ⟨[]⟩

def push (decoder : FrameDecoder) (data : List UInt8) : FrameDecoder :=
  ⟨decoder.buffer ++ data⟩

def buffered (decoder : FrameDecoder) : Nat := decoder.buffer.length

def nextFrame (decoder : FrameDecoder) : Except DecodeError (Option Frame) × FrameDecoder :=
  if h : decoder.buffer.length < headerSize then (.ok none, decoder)
  else
    match Frame.parseHeader ⟨decoder.buffer.take headerSize, length_take_header h⟩ with
    | .error error => (.error (.ofHeader error), decoder)
    | .ok (_, _, length) =>
        let total := headerSize + length
        if decoder.buffer.length < total then (.ok none, decoder)
        else
          match Frame.decode (decoder.buffer.take total) with
          | .error _ => (.error .malformed, decoder)
          | .ok (frame, consumed) => (.ok (some frame), ⟨decoder.buffer.drop consumed⟩)

end FrameDecoder

def Frame.reading (input : List UInt8) : Reading Frame DecodeError :=
  match Frame.decode input with
  | .ok (frame, n) => .item frame n
  | .error .truncatedFrame => .more
  | .error error => .failed (.ofHeader error)

theorem Frame.parseHeader_fails (header : Bytes headerSize) :
    FailsWith (· ≠ .truncatedFrame) (Frame.parseHeader header) := by
  rw [Frame.parseHeader]
  refine .bind ?_ fun version => .bind ?_ fun messageType => .bind ?_ fun declared => .ok
  · rw [ProtocolVersion.tryFrom.eq_def]
    split
    · exact .ok
    · exact .error (by simp)
  · rw [MessageType.tryFrom.eq_def]
    split
    case h_6 => exact .error (by simp)
    all_goals exact .ok
  · exact .ite (.error (by simp)) (.ite .ok (.error (by simp)))

theorem Frame.decode_of_parse {input : List UInt8} (hlong : ¬ input.length < headerSize)  :
    Frame.decode input =
      match Frame.parseHeader ⟨input.take headerSize, length_take_header hlong⟩ with
      | .error error => .error error
      | .ok (version, messageType, declared) =>
          if input.length < headerSize + declared then .error .truncatedFrame
          else .ok (⟨version, messageType, (input.take (headerSize + declared)).drop headerSize⟩,
            headerSize + declared) := by
  cases hparse : Frame.parseHeader ⟨input.take headerSize, length_take_header hlong⟩ with
  | error e => rw [Frame.decode, dif_neg hlong, hparse]; rfl
  | ok read =>
      obtain ⟨version, messageType, declared⟩ := read
      obtain ⟨hhead, hle⟩ := Frame.parseHeader_eq_ok.1 hparse
      exact Frame.decode_header hle hhead

theorem Frame.reading_short {input : List UInt8} (hshort : input.length < headerSize) :
    Frame.reading input = .more := by
  rw [Frame.reading, Frame.decode, dif_pos hshort]

theorem Frame.reading_rejected {input : List UInt8} (hlong : ¬ input.length < headerSize)
    {error : Error}
    (h : Frame.parseHeader ⟨input.take headerSize, length_take_header hlong⟩ = .error error) :
    Frame.reading input = .failed (.ofHeader error) := by
  have htrunc := Frame.parseHeader_fails _ error h
  rw [Frame.reading, Frame.decode_of_parse hlong, h]
  dsimp only
  split
  · contradiction
  · cases ‹Except.error error = _›
    contradiction
  · cases ‹Except.error error = _›
    rfl

theorem Frame.reading_accepted {input : List UInt8} (hlong : ¬ input.length < headerSize)
    {version : ProtocolVersion} {messageType : MessageType} {declared : Nat}
    (h : Frame.parseHeader ⟨input.take headerSize, length_take_header hlong⟩ =
      .ok (version, messageType, declared)) :
    Frame.reading input =
      if input.length < headerSize + declared then .more
      else .item ⟨version, messageType, (input.take (headerSize + declared)).drop headerSize⟩
        (headerSize + declared) := by
  rw [Frame.reading, Frame.decode_of_parse hlong, h]
  dsimp only
  split_ifs <;> rfl

theorem Frame.reading_eq_item {input : List UInt8} {frame : Frame} {n : Nat} :
    Frame.reading input = .item frame n ↔ Frame.decode input = .ok (frame, n) := by
  rw [Frame.reading]
  split
  next h => simp [h]
  next h => simp [h]
  next h => simp [h]

def frameReader : Reader UInt8 Frame DecodeError where
  read := Frame.reading
  item_pos h := by
    obtain ⟨-, rfl, -⟩ := Frame.decode_eq_ok.1 (Frame.reading_eq_item.1 h)
    exact Nat.add_pos_left (by decide) _
  item_le h := by
    obtain ⟨-, rfl, hprefix⟩ := Frame.decode_eq_ok.1 (Frame.reading_eq_item.1 h)
    have hl := hprefix.length_le
    rwa [List.length_append, Frame.length_header] at hl
  item_append h ys := by
    obtain ⟨hle, rfl, hprefix⟩ := Frame.decode_eq_ok.1 (Frame.reading_eq_item.1 h)
    apply Frame.reading_eq_item.2
    exact Frame.decode_eq_ok.2 ⟨hle, rfl, hprefix.trans (List.prefix_append _ _)⟩
  failed_append := by
    intro input e h ys
    by_cases hshort : input.length < headerSize
    · rw [Frame.reading_short hshort] at h
      cases h
    · have hlong : ¬ (input ++ ys).length < headerSize := by
        rw [List.length_append]
        omega
      have htake : (input ++ ys).take headerSize = input.take headerSize :=
        List.take_append_of_le_length (by omega)
      cases hparse : Frame.parseHeader ⟨input.take headerSize, length_take_header hshort⟩ with
      | error error =>
          rw [Frame.reading_rejected hshort hparse] at h
          rw [← h]
          apply Frame.reading_rejected hlong
          simp only [htake, hparse]
      | ok read =>
          obtain ⟨version, messageType, declared⟩ := read
          rw [Frame.reading_accepted hshort hparse] at h
          split_ifs at h

/-- The decoder reads the front of its buffer, and takes away what it read. -/
theorem FrameDecoder.nextFrame_eq (decoder : FrameDecoder) :
    decoder.nextFrame =
      match Frame.reading decoder.buffer with
      | .item frame n => (.ok (some frame), ⟨decoder.buffer.drop n⟩)
      | .failed e => (.error e, decoder)
      | .more => (.ok none, decoder) := by
  rw [FrameDecoder.nextFrame]
  split
  next hshort => rw [Frame.reading_short hshort]
  next hlong =>
    cases hparse : Frame.parseHeader ⟨decoder.buffer.take headerSize, length_take_header hlong⟩ with
    | error error => rw [Frame.reading_rejected hlong hparse]
    | ok read =>
        obtain ⟨version, messageType, declared⟩ := read
        rw [Frame.reading_accepted hlong hparse]
        dsimp only
        split
        next => rfl
        next hwhole =>
          obtain ⟨hhead, hle⟩ := Frame.parseHeader_eq_ok.1 hparse
          have htake : (decoder.buffer.take (headerSize + declared)).take headerSize =
              headerBytes version messageType declared := by
            rw [List.take_take, Nat.min_eq_left (Nat.le_add_right _ _)]
            exact hhead
          have hl : (decoder.buffer.take (headerSize + declared)).length = headerSize + declared :=
            List.length_take_of_le (by omega)
          rw [Frame.decode_header hle htake, if_neg (by omega), List.take_take, Nat.min_self]

theorem FrameDecoder.nextFrame_lt {decoder decoder' : FrameDecoder} {frame : Frame}
    (h : decoder.nextFrame = (.ok (some frame), decoder')) :
    decoder'.buffer.length < decoder.buffer.length := by
  rw [FrameDecoder.nextFrame_eq] at h
  split at h
  next hread =>
    cases h
    exact frameReader.drop_lt hread
  next => cases h
  next => cases h

theorem Frame.decode_lt {input : List UInt8} {frame : Frame} {n : Nat}
    (h : Frame.decode input = .ok (frame, n)) : (input.drop n).length < input.length :=
  frameReader.drop_lt (Frame.reading_eq_item.2 h)

def FrameDecoder.drain (decoder : FrameDecoder) :
    List Frame × Option DecodeError × FrameDecoder :=
  match _h : decoder.nextFrame with
  | (.ok (some frame), decoder') =>
      let (drained, error, last) := FrameDecoder.drain decoder'
      (frame :: drained, error, last)
  | (.ok none, decoder') => ([], none, decoder')
  | (.error e, decoder') => ([], some e, decoder')
termination_by decoder.buffer.length
decreasing_by exact FrameDecoder.nextFrame_lt ‹_›

def FrameDecoder.receive (decoder : FrameDecoder) :
    List (List UInt8) → List Frame × Option DecodeError × FrameDecoder
  | [] => ([], none, decoder)
  | chunk :: chunks =>
      match (decoder.push chunk).drain with
      | (drained, some e, last) => (drained, some e, last)
      | (drained, none, last) =>
          let (received, error, last) := last.receive chunks
          (drained ++ received, error, last)

def Frame.decodeAll (input : List UInt8) : List Frame × Error :=
  match _h : Frame.decode input with
  | .ok (frame, n) =>
      let (decoded, error) := Frame.decodeAll (input.drop n)
      (frame :: decoded, error)
  | .error error => ([], error)
termination_by input.length
decreasing_by exact Frame.decode_lt ‹_›

def DecodeError.ofDecode : Error → Option DecodeError
  | .truncatedFrame => none
  | error => some (.ofHeader error)

theorem FrameDecoder.drain_some {decoder decoder' : FrameDecoder} {frame : Frame}
    (h : decoder.nextFrame = (.ok (some frame), decoder')) :
    decoder.drain = (frame :: decoder'.drain.1, decoder'.drain.2) := by
  rw [FrameDecoder.drain]
  split
  next h' =>
    rw [h] at h'
    cases h'
    rfl
  next h' => simp [h] at h'
  next h' => simp [h] at h'

theorem FrameDecoder.drain_none {decoder decoder' : FrameDecoder}
    (h : decoder.nextFrame = (.ok none, decoder')) : decoder.drain = ([], none, decoder') := by
  rw [FrameDecoder.drain]
  split
  next h' => simp [h] at h'
  next h' =>
    rw [h] at h'
    cases h'
    rfl
  next h' => simp [h] at h'

theorem FrameDecoder.drain_error {decoder decoder' : FrameDecoder} {e : DecodeError}
    (h : decoder.nextFrame = (.error e, decoder')) : decoder.drain = ([], some e, decoder') := by
  rw [FrameDecoder.drain]
  split
  next h' => simp [h] at h'
  next h' => simp [h] at h'
  next h' =>
    rw [h] at h'
    cases h'
    rfl

theorem Frame.decodeAll_ok {input : List UInt8} {frame : Frame} {n : Nat}
    (h : Frame.decode input = .ok (frame, n)) :
    Frame.decodeAll input =
      (frame :: (Frame.decodeAll (input.drop n)).1, (Frame.decodeAll (input.drop n)).2) := by
  rw [Frame.decodeAll]
  split
  next h' =>
    rw [h] at h'
    cases h'
    rfl
  next h' => simp [h] at h'

theorem Frame.decodeAll_error {input : List UInt8} {error : Error}
    (h : Frame.decode input = .error error) : Frame.decodeAll input = ([], error) := by
  rw [Frame.decodeAll]
  split
  next h' => simp [h] at h'
  next h' =>
    rw [h] at h'
    cases h'
    rfl

/-- The loop over `next_frame` drains the stream of its buffer. -/
theorem FrameDecoder.drain_eq (buffer : List UInt8) :
    FrameDecoder.drain ⟨buffer⟩ = ((frameReader.drain buffer).items, (frameReader.drain buffer).error,
      ⟨(frameReader.drain buffer).rest⟩) := by
  induction buffer using Reader.drain.induct frameReader with
  | case1 buffer frame n h ih =>
      have hread : Frame.reading buffer = .item frame n := h
      have hnext := FrameDecoder.nextFrame_eq ⟨buffer⟩
      simp only [hread] at hnext
      rw [FrameDecoder.drain_some hnext, ih, frameReader.drain_item h]
      rfl
  | case2 buffer e h =>
      have hread : Frame.reading buffer = .failed e := h
      have hnext := FrameDecoder.nextFrame_eq ⟨buffer⟩
      simp only [hread] at hnext
      rw [FrameDecoder.drain_error hnext, frameReader.drain_failed h]
  | case3 buffer h =>
      have hread : Frame.reading buffer = .more := h
      have hnext := FrameDecoder.nextFrame_eq ⟨buffer⟩
      simp only [hread] at hnext
      rw [FrameDecoder.drain_none hnext, frameReader.drain_more h]

theorem FrameDecoder.receive_eq (chunks : List (List UInt8)) (buffer : List UInt8) :
    FrameDecoder.receive ⟨buffer⟩ chunks = ((frameReader.feed buffer chunks).items,
      (frameReader.feed buffer chunks).error, ⟨(frameReader.feed buffer chunks).rest⟩) := by
  induction chunks generalizing buffer with
  | nil => rfl
  | cons chunk chunks ih =>
      have hdrain := FrameDecoder.drain_eq (buffer ++ chunk)
      rw [FrameDecoder.receive, FrameDecoder.push, hdrain, Reader.feed]
      cases herror : (frameReader.drain (buffer ++ chunk)).error with
      | some e => simp [herror]
      | none => simp [ih, Outcome.after]

theorem Frame.decodeAll_eq (input : List UInt8) :
    (Frame.decodeAll input).1 = (frameReader.drain input).items ∧
      DecodeError.ofDecode (Frame.decodeAll input).2 = (frameReader.drain input).error := by
  induction input using Reader.drain.induct frameReader with
  | case1 input frame n h ih =>
      obtain ⟨hitems, herror⟩ := ih
      rw [Frame.decodeAll_ok (Frame.reading_eq_item.1 h), frameReader.drain_item h]
      exact ⟨congrArg (frame :: ·) hitems, herror⟩
  | case2 input e h =>
      rw [frameReader.drain_failed h]
      change Frame.reading input = .failed e at h
      rw [Frame.reading] at h
      split at h
      · cases h
      · cases h
      next error herror hdecode =>
        cases h
        rw [Frame.decodeAll_error hdecode]
        refine ⟨rfl, ?_⟩
        cases error <;> first | rfl | contradiction
  | case3 input h =>
      rw [frameReader.drain_more h]
      change Frame.reading input = .more at h
      rw [Frame.reading] at h
      split at h
      · cases h
      next hdecode => rw [Frame.decodeAll_error hdecode]; exact ⟨rfl, rfl⟩
      · cases h

theorem Frame.length_of_reading_more {input : List UInt8} (h : Frame.reading input = .more) :
    input.length < headerSize + maxFrameSize := by
  by_cases hshort : input.length < headerSize
  · exact Nat.lt_add_right _ hshort
  · cases hparse : Frame.parseHeader ⟨input.take headerSize, length_take_header hshort⟩ with
    | error error =>
        rw [Frame.reading_rejected hshort hparse] at h
        cases h
    | ok read =>
        obtain ⟨version, messageType, declared⟩ := read
        have hle := (Frame.parseHeader_eq_ok.1 hparse).2
        have hmax := messageType.maxPayload_le
        rw [Frame.reading_accepted hshort hparse] at h
        split_ifs at h
        omega

inductive FrameDecoder.Call
  | push (data : List UInt8)
  | nextFrame

def FrameDecoder.call (decoder : FrameDecoder) : FrameDecoder.Call → FrameDecoder
  | .push data => decoder.push data
  | .nextFrame => decoder.nextFrame.2

theorem FrameDecoder.nextFrame_eq_error {decoder : FrameDecoder} {e : DecodeError} :
    decoder.nextFrame.1 = .error e ↔ Frame.reading decoder.buffer = .failed e := by
  rw [FrameDecoder.nextFrame_eq]
  split
  next h => simp [h]
  next h => simp [h]
  next h => simp [h]

theorem FrameDecoder.call_failed {decoder : FrameDecoder} {e : DecodeError}
    (h : decoder.nextFrame.1 = .error e) (call : FrameDecoder.Call) :
    (decoder.call call).nextFrame.1 = .error e := by
  have hread := FrameDecoder.nextFrame_eq_error.1 h
  cases call with
  | push data => exact FrameDecoder.nextFrame_eq_error.2 (frameReader.failed_append hread data)
  | nextFrame =>
      have hnext := FrameDecoder.nextFrame_eq decoder
      simp only [hread] at hnext
      rw [FrameDecoder.call, hnext]
      exact h

theorem FrameDecoder.calls_failed {decoder : FrameDecoder} {e : DecodeError}
    (h : decoder.nextFrame.1 = .error e) (calls : List FrameDecoder.Call) :
    (calls.foldl FrameDecoder.call decoder).nextFrame.1 = .error e := by
  induction calls generalizing decoder with
  | nil => exact h
  | cons call calls ih => exact ih (FrameDecoder.call_failed h call)

/-- How the bytes of a stream are cut into chunks does not matter, errors stay,
and what waits for more bytes is less than a frame. -/
theorem stream_decoding_ignores_chunks :
    (∀ chunks : List (List UInt8),
      (FrameDecoder.new.receive chunks).1 = (Frame.decodeAll chunks.flatten).1 ∧
        (FrameDecoder.new.receive chunks).2.1 =
          DecodeError.ofDecode (Frame.decodeAll chunks.flatten).2) ∧
    (∀ (decoder : FrameDecoder) e, decoder.nextFrame.1 = .error e →
      ∀ calls : List FrameDecoder.Call,
        (calls.foldl FrameDecoder.call decoder.nextFrame.2).nextFrame.1 = .error e) ∧
    (∀ decoder : FrameDecoder, decoder.drain.2.1 = none →
      decoder.drain.2.2.buffered < headerSize + maxFrameSize) := by
  refine ⟨?_, ?_, ?_⟩
  · intro chunks
    have hempty : frameReader.read [] = .more := rfl
    obtain ⟨hitems, herror⟩ := frameReader.feed_eq chunks [] hempty
    obtain ⟨hdecoded, hlast⟩ := Frame.decodeAll_eq chunks.flatten
    rw [FrameDecoder.new, FrameDecoder.receive_eq, hdecoded, hlast]
    exact ⟨hitems, herror⟩
  · intro decoder e h calls
    exact FrameDecoder.calls_failed h (.nextFrame :: calls)
  · rintro ⟨buffer⟩ h
    have hrest := frameReader.drain_rest buffer
    rw [FrameDecoder.drain_eq] at h ⊢
    dsimp only at h
    rw [h] at hrest
    exact Frame.length_of_reading_more hrest

theorem stream_decoding_ignores_chunks_sample :
    (FrameDecoder.new.receive [[1, 5, 0, 0], [0, 1, 160, 9, 1], [0, 0, 0, 0]]).1 =
      (Frame.decodeAll [1, 5, 0, 0, 0, 1, 160, 9, 1, 0, 0, 0, 0]).1 ∧
    ([FrameDecoder.Call.push [1], .nextFrame].foldl FrameDecoder.call
      (FrameDecoder.nextFrame ⟨[9, 1, 0, 0, 0, 0]⟩).2).nextFrame.1 = .error .unsupportedVersion ∧
    (FrameDecoder.drain ⟨[1, 5, 0]⟩).2.2.buffered < headerSize + maxFrameSize := by
  obtain ⟨hchunks, hfailed, hbuffered⟩ := stream_decoding_ignores_chunks
  refine ⟨(hchunks _).1, hfailed _ _ rfl _, hbuffered _ ?_⟩
  have hnext : FrameDecoder.nextFrame ⟨[1, 5, 0]⟩ = (.ok none, ⟨[1, 5, 0]⟩) := rfl
  rw [FrameDecoder.drain_none hnext]

end Ruxmsg

import H2pp.Http2.Frame
import H2pp.Utils.Buffer

/-! # Frames that are sent

`frame_builder.cpp` and `dummy_window.cpp`. The builders write a frame header and,
for frames of the connection, the payload. The payload of HEADERS, CONTINUATION and
DATA frames is added by the stream.
-/

namespace H2pp.Http2

open Utils

/-- A 32-bit number as a little-endian host stores it. -/
def writeNative32 (value : Nat) : Bytes :=
  [value, value / 2 ^ 8, value / 2 ^ 16, value / 2 ^ 24].map UInt8.ofNat

/-- A `big_uint32_t` as it is stored. -/
def writeBig32 (value : Nat) : Bytes := (writeNative32 value).reverse

/-- A frame with its header fields: `length` as `set_payload_size` stores it and
`streamId` as it lies in memory. -/
structure OutFrame where
  length : Nat
  type : FrameType
  flags : UInt8
  streamId : Nat
  payload : Bytes
  deriving DecidableEq, Repr

namespace OutFrame

/-- A frame header for a payload of `payloadSize` bytes; `length` is a `big_uint24_t`. -/
def header (type : FrameType) (flags : UInt8) (streamId payloadSize : Nat) : OutFrame :=
  ⟨payloadSize % 2 ^ 24, type, flags, streamId, []⟩

/-- The bytes written so far. -/
def size (frame : OutFrame) : Nat := headerSize + frame.payload.length

/-- The frame as it is sent. -/
def bytes (frame : OutFrame) : Bytes :=
  [frame.length / 2 ^ 16, frame.length / 2 ^ 8, frame.length].map UInt8.ofNat ++
    frame.type.value :: frame.flags :: writeNative32 frame.streamId ++ frame.payload

/-- The header takes nine bytes, whatever it says about the payload. -/
@[simp] theorem length_bytes (frame : OutFrame) : frame.bytes.length = frame.size := by
  simp only [bytes, size, headerSize, writeNative32, List.map_cons, List.map_nil, List.cons_append,
    List.nil_append, List.length_cons]
  omega

end OutFrame

section Stored

variable {span : Span} {offset value : Nat}

/-- A number that was written in native order is read back. -/
theorem readNative32_of_holds (held : span.Holds offset (writeNative32 value))
    (small : value < 2 ^ 32) : readNative32 span offset = value := by
  have first : span.mem offset = _ := held 0 _ rfl
  have second := held 1 _ rfl
  have third := held 2 _ rfl
  have fourth := held 3 _ rfl
  rw [readNative32, first, second, third, fourth]
  simp only [UInt8.toNat_ofNat']
  omega

/-- A number that was written in network order is read back. -/
theorem readBig32_of_holds (held : span.Holds offset (writeBig32 value))
    (small : value < 2 ^ 32) : readBig32 span offset = value := by
  have first : span.mem offset = _ := held 0 _ rfl
  have second := held 1 _ rfl
  have third := held 2 _ rfl
  have fourth := held 3 _ rfl
  rw [readBig32, first, second, third, fourth]
  simp only [UInt8.toNat_ofNat']
  omega

/-- The stream identifier of a frame that the memory holds. -/
theorem streamId_of_holds {frame : OutFrame} (held : span.Holds 0 frame.bytes)
    (identified : frame.streamId < 2 ^ 32) : readNative32 span 5 = frame.streamId := by
  refine readNative32_of_holds (fun index byte found => ?_) identified
  have there := (Span.holds_append.mp held).1 (index + 5) byte found
  rwa [Nat.zero_add, Nat.add_comm] at there

/-- The payload of a frame that the memory holds. -/
theorem payload_of_holds {frame : OutFrame} (held : span.Holds 0 frame.bytes) :
    span.Holds headerSize frame.payload :=
  (Span.holds_append.mp held).2

end Stored

/-- The header of a frame is that of a frame which was sent, and so is the payload as far
as the sender wrote it. -/
structure FrameAnalyzer.Shows (analyzer : FrameAnalyzer) (frame : OutFrame) : Prop where
  type : analyzer.typeByte = frame.type.value
  flags : analyzer.flags = frame.flags
  streamId : analyzer.streamId = frame.streamId
  payloadSize : analyzer.payloadSize = frame.length
  payload : analyzer.buffer.Holds headerSize frame.payload

/-- What stands in the memory of a span is what the analyzer over it shows. -/
theorem FrameAnalyzer.shows_of_holds {analyzer : FrameAnalyzer} {frame : OutFrame}
    (held : analyzer.buffer.Holds 0 frame.bytes) (short : frame.length < 2 ^ 24)
    (identified : frame.streamId < 2 ^ 32) : analyzer.Shows frame := by
  have header := (Span.holds_append.mp held).1
  refine ⟨header 3 _ rfl, header 4 _ rfl, streamId_of_holds held identified, ?_,
    payload_of_holds held⟩
  have first : analyzer.buffer.mem 0 = _ := header 0 _ rfl
  have second : analyzer.buffer.mem 1 = _ := header 1 _ rfl
  have third : analyzer.buffer.mem 2 = _ := header 2 _ rfl
  rw [payloadSize, readLength, first, second, third]
  simp only [UInt8.toNat_ofNat']
  omega

/-- A frame that was sent is read back from its bytes, whatever follows them. -/
theorem FrameAnalyzer.fromBuffer_shows {frame : OutFrame} (short : frame.length < 2 ^ 24)
    (identified : frame.streamId < 2 ^ 32) (around : Int → UInt8) (rest : Bytes) :
    ∃ analyzer, fromBuffer (Span.ofBytes around (frame.bytes ++ rest)) = .ok analyzer ∧
      analyzer.buffer.mem = (Span.ofBytes around (frame.bytes ++ rest)).mem ∧
      analyzer.Shows frame := by
  have held := (Span.holds_append.mp (Span.holds_ofBytes around (frame.bytes ++ rest))).1
  rcases fromBuffer_cases (Span.ofBytes around (frame.bytes ++ rest)) with
    ⟨few, -⟩ | ⟨-, analyzer, read, taken⟩
  · change (frame.bytes ++ rest).length < headerSize at few
    rw [List.length_append, OutFrame.length_bytes, OutFrame.size] at few
    omega
  · have memory := congrArg Span.mem taken
    refine ⟨analyzer, read, memory, shows_of_holds ?_ short identified⟩
    rw [Span.Holds, memory]
    exact held

namespace FrameBuilder

/-- `goaway(err, last_stream_id, additional)`. -/
def goaway (err lastStreamId : Nat) (additional : Bytes) : OutFrame :=
  { OutFrame.header .goaway 0 0 (8 + additional.length) with
    payload := writeNative32 lastStreamId ++ writeNative32 err ++ additional }

/-- `ping({})`: the data is what the memory of the new buffer holds. -/
def ping (memory : Bytes) : OutFrame :=
  { OutFrame.header .ping 0 0 8 with payload := memory.takeD 8 0 }

/-- `reset(err, stream_id)`. -/
def reset (err streamId : Nat) : OutFrame :=
  { OutFrame.header .rstStream 0 streamId 4 with payload := writeNative32 (nativeToBig32 err) }

/-- `update_window(size, stream_id)`. -/
def updateWindow (size streamId : Nat) : OutFrame :=
  { OutFrame.header .windowUpdate 0 streamId 4 with payload := writeBig32 size }

/-- A `settings_item`: the type, and the value in network order. -/
def settingsItem (item : Nat × Nat) : Bytes :=
  [item.1 / 2 ^ 8, item.1].map UInt8.ofNat ++ writeBig32 item.2

/-- `settings(fields)`. -/
def settings (fields : List (Nat × Nat)) : OutFrame :=
  { OutFrame.header .settings 0 0 (6 * fields.length) with
    payload := fields.flatMap settingsItem }

/-- `settings_ack()`. -/
def settingsAck : OutFrame := OutFrame.header .settings Flags.ack 0 0

/-- `headers(stream_id, flags, payload_size)`, without PADDED and PRIORITY. -/
def headers (streamId : Nat) (flags : UInt8) (payloadSize : Nat) : OutFrame :=
  OutFrame.header .headers flags streamId payloadSize

/-- `continuation(stream_id, flags, payload_size)`. -/
def continuation (streamId : Nat) (flags : UInt8) (payloadSize : Nat) : OutFrame :=
  OutFrame.header .continuation flags streamId payloadSize

/-- `data(stream_id, flags, payload_size)`, without PADDED: the frame, and the size of
the span for the payload. The last parameter is a `uint32_t`. -/
def data (streamId : Nat) (flags : UInt8) (payloadSize : Nat) : OutFrame × Nat :=
  (OutFrame.header .data flags streamId payloadSize, payloadSize % 2 ^ 32)

end FrameBuilder

/-- `dummy_window`. -/
structure DummyWindow where
  maxSize : UInt32
  size : UInt32
  triggerSize : UInt32
  deriving DecidableEq, Repr

namespace DummyWindow

/-- `dummy_window(msize, trigger)`. -/
def create (msize trigger : Nat) : DummyWindow := ⟨.ofNat msize, .ofNat msize, .ofNat trigger⟩

/-- `dec(v)`. -/
def dec (window : DummyWindow) (v : Nat) : DummyWindow :=
  { window with size := window.size - .ofNat v }

/-- `need_update()`. -/
def needUpdate (window : DummyWindow) : Bool := window.maxSize - window.size ≥ window.triggerSize

/-- `update(http_id)`. -/
def update (window : DummyWindow) (httpId : Nat) : Option OutFrame × DummyWindow :=
  if window.needUpdate then
    let incSize := window.maxSize - window.size
    (some (FrameBuilder.updateWindow incSize.toNat httpId),
      { window with size := window.size + incSize })
  else (none, window)

/-- The bytes that have been counted since the last update. -/
def counted (window : DummyWindow) : Nat := (window.maxSize - window.size).toNat

/-- It is time for an update when as much as the trigger has been counted. -/
theorem needUpdate_eq (window : DummyWindow) :
    window.needUpdate = decide (window.triggerSize.toNat ≤ window.counted) := by
  unfold needUpdate counted
  exact decide_eq_decide.mpr UInt32.le_iff_toNat_le

/-- Received bytes are counted modulo `2 ^ 32`. -/
theorem counted_dec (window : DummyWindow) (v : Nat) :
    (window.dec v).counted = (window.counted + v) % 2 ^ 32 := by
  have rearranged : window.maxSize - (window.size - .ofNat v) =
      window.maxSize - window.size + .ofNat v := by
    grind
  rw [counted, dec, rearranged, UInt32.toNat_add, counted]
  simp only [UInt32.toNat_ofNat', Nat.reducePow, Nat.add_mod_mod]

/-- Counting nothing changes nothing. -/
@[simp] theorem dec_zero (window : DummyWindow) : window.dec 0 = window := by
  have zero : UInt32.ofNat 0 = 0 := rfl
  rw [dec, zero, UInt32.sub_zero]

end DummyWindow

end H2pp.Http2

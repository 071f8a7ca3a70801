import H2pp.Utils.Span

/-! # Frames

`protocol.h` and `frame.cpp`. A frame is read in place: the analyzer holds a span
over its bytes, and the accessors compute ranges of the payload from the length,
the flags and the pad byte, all of which come from the peer.
-/

namespace H2pp.Http2

open Utils

/-- `frame_type`. -/
inductive FrameType
  | data
  | headers
  | priority
  | rstStream
  | settings
  | pushPromise
  | ping
  | goaway
  | windowUpdate
  | continuation
  deriving DecidableEq, Repr

namespace FrameType

def value : FrameType → UInt8
  | data => 0x0
  | headers => 0x1
  | priority => 0x2
  | rstStream => 0x3
  | settings => 0x4
  | pushPromise => 0x5
  | ping => 0x6
  | goaway => 0x7
  | windowUpdate => 0x8
  | continuation => 0x9

/-- The type a byte stands for, if it is one. -/
def ofByte (byte : UInt8) : Option FrameType :=
  [data, headers, priority, rstStream, settings, pushPromise, ping, goaway, windowUpdate,
    continuation][byte.toNat]?

/-- The byte of a type is known as this type. -/
@[simp] theorem ofByte_value (type : FrameType) : ofByte type.value = some type := by
  cases type <;> rfl

/-- A known byte is that of its type. -/
theorem value_of_ofByte {byte : UInt8} {type : FrameType} (known : ofByte byte = some type) :
    byte = type.value := by
  obtain ⟨inside, found⟩ := List.getElem?_eq_some_iff.mp known
  have number := UInt8.ofNat_toNat (x := byte)
  rw [← number]
  generalize byte.toNat = row at inside found
  match row, inside, found with
  | 0, _, rfl => rfl
  | 1, _, rfl => rfl
  | 2, _, rfl => rfl
  | 3, _, rfl => rfl
  | 4, _, rfl => rfl
  | 5, _, rfl => rfl
  | 6, _, rfl => rfl
  | 7, _, rfl => rfl
  | 8, _, rfl => rfl
  | 9, _, rfl => rfl

end FrameType

namespace Flags

def endStream : UInt8 := 0x1
def ack : UInt8 := 0x1
def endHeaders : UInt8 := 0x4
def padded : UInt8 := 0x8
def priority : UInt8 := 0x20

end Flags

/-- `sizeof(header)`. -/
def headerSize : Nat := 9

/-- The three fields of `header` that are numbers, read from the memory of a span:
`length` in network order, `stream_id` as it lies in memory. -/
def readLength (span : Span) : Nat :=
  (span.mem 0).toNat * 2 ^ 16 + (span.mem 1).toNat * 2 ^ 8 + (span.mem 2).toNat

/-- The length is a 24-bit number. -/
theorem readLength_lt (span : Span) : readLength span < 2 ^ 24 := by
  have first := (span.mem 0).toNat_lt
  have second := (span.mem 1).toNat_lt
  have third := (span.mem 2).toNat_lt
  unfold readLength
  omega

/-- A 32-bit number in memory, read on a little-endian host. -/
def readNative32 (span : Span) (offset : Nat) : Nat :=
  (span.mem offset).toNat + (span.mem (offset + 1 : Nat)).toNat * 2 ^ 8 +
    (span.mem (offset + 2 : Nat)).toNat * 2 ^ 16 + (span.mem (offset + 3 : Nat)).toNat * 2 ^ 24

/-- A `big_uint32_t` in memory. -/
def readBig32 (span : Span) (offset : Nat) : Nat :=
  (span.mem offset).toNat * 2 ^ 24 + (span.mem (offset + 1 : Nat)).toNat * 2 ^ 16 +
    (span.mem (offset + 2 : Nat)).toNat * 2 ^ 8 + (span.mem (offset + 3 : Nat)).toNat

/-- `frame_analyzer`: a frame header, followed by as much of the payload as there is
and by nothing else. -/
structure FrameAnalyzer where
  buffer : Span
  long : headerSize ≤ buffer.size
  adjusted : buffer.size ≤ headerSize + readLength buffer

namespace FrameAnalyzer

/-- `frame_analyzer::from_buffer(buffer)`. -/
def fromBuffer (buffer : Span) : Except Failure FrameAnalyzer :=
  if short : buffer.size < headerSize then
    .error (.lengthError "not enought data for a valid frame")
  else
    .ok {
      buffer := buffer.first (min (headerSize + readLength buffer) buffer.size)
      long := Nat.le_min.mpr ⟨Nat.le_add_right _ _, Nat.not_lt.mp short⟩
      adjusted := Nat.min_le_left _ _ }

variable (frame : FrameAnalyzer)

/-- `frame_header().payload_size()`. -/
def payloadSize : Nat := readLength frame.buffer

/-- `frame_header().type`. -/
def typeByte : UInt8 := frame.buffer.mem 3

/-- `frame_header().flags`. -/
def flags : UInt8 := frame.buffer.mem 4

/-- `frame_header().stream_id`. -/
def streamId : Nat := readNative32 frame.buffer 5

/-- `size()`. -/
def size : Nat := headerSize + frame.payloadSize

/-- `is_complete()`. -/
def isComplete : Bool := frame.size ≤ frame.buffer.size

/-- The functions of `check_table`. All of them are empty. -/
def checkTable (_ : FrameType) : Except Failure Unit := .ok ()

/-- `check(max_frame_size)`. -/
def check (maxFrameSize : Nat) : Except Failure Unit :=
  match FrameType.ofByte frame.typeByte with
  | none => .error (.systemError .protocolError "Unknown frame type")
  | some type =>
      if frame.payloadSize > maxFrameSize then
        .error (.systemError .frameSizeError "Overflow payload size")
      else checkTable type

/-- `get_frame<type>()`. -/
def getFrame (type : FrameType) : Except Failure FrameAnalyzer :=
  if frame.typeByte ≠ type.value then .error (.runtimeError "Can't cast to frame type")
  else .ok frame

/-- A range of the payload. -/
structure Range where
  offset : Nat
  count : Nat
  deriving DecidableEq, Repr

/-- The bytes of a range. -/
def span (range : Range) : Span :=
  { (frame.buffer.subspan (headerSize + range.offset)) with size := range.count }

def isPadded : Bool := frame.flags &&& Flags.padded ≠ 0

/-- The pad length: the first byte of the payload, if there is padding. -/
def padLength : Nat := if frame.isPadded then (frame.buffer.mem headerSize).toNat else 0

/-- The number of bytes before the content. -/
def contentOffset (extra : Nat) : Nat := (if frame.isPadded then 1 else 0) + extra

/-- The content between the first bytes and the padding; the count is computed on
`size_t`. -/
def content (extra : Nat) : Range :=
  ⟨frame.contentOffset extra,
    (frame.payloadSize + 2 ^ 64 - frame.contentOffset extra - frame.padLength) % 2 ^ 64⟩

/-- The bytes of the PRIORITY fields in a HEADERS frame. -/
def priorityFields : Nat := if frame.flags &&& Flags.priority ≠ 0 then 5 else 0

/-- `data_frame::data()`. -/
def data : Range := frame.content 0

/-- `header_frame::header_block()`. -/
def headerBlock : Range := frame.content frame.priorityFields

/-- `continuation_frame::header_block()`. -/
def continuationBlock : Range := ⟨0, frame.payloadSize⟩

/-- `settings_frame::items()`, six bytes each. -/
def items : Range := ⟨0, frame.payloadSize / 6 * 6⟩

/-- `reset_frame::code`. -/
def code : Range := ⟨0, 4⟩

/-- `window_update_frame::window_size`. -/
def windowSize : Range := ⟨0, 4⟩

/-- `goaway_frame::last_stream_id`. -/
def lastStreamId : Nat := readNative32 frame.buffer headerSize

/-- `goaway_frame::error`. -/
def goawayError : Nat := readNative32 frame.buffer (headerSize + 4)

/-- `goaway_frame::additional()`; the count is computed on `size_t`. -/
def additional : Range := ⟨8, (frame.payloadSize + headerSize + 2 ^ 64 - 17) % 2 ^ 64⟩

/-- The ranges that the handler of a frame reads, the pad byte included; `known` tells whether
the registry has the stream of the frame. The content of a DATA frame is taken by the stream,
and only if `payload_size() != 0`. The items of an acknowledgement are not read. -/
def handlerRanges (known : Bool) : List Range :=
  let padByte := if frame.isPadded then [⟨0, 1⟩] else []
  match FrameType.ofByte frame.typeByte with
  | some .data => if known ∧ frame.payloadSize ≠ 0 then frame.data :: padByte else []
  | some .headers => frame.headerBlock :: padByte
  | some .continuation => [frame.continuationBlock]
  | some .settings => if frame.flags &&& Flags.ack ≠ 0 then [] else [frame.items]
  | some .rstStream => [code]
  | some .windowUpdate => [windowSize]
  | _ => []

/-- The range lies in the payload bytes that the buffer holds. -/
def Inside (range : Range) : Prop :=
  range.offset + range.count ≤ frame.payloadSize ∧
    headerSize + range.offset + range.count ≤ frame.buffer.size

instance (range : Range) : Decidable (frame.Inside range) :=
  inferInstanceAs (Decidable (_ ∧ _))

/-- What the empty functions of `check_table` would have to check. -/
def WellSized (known : Bool) : Prop :=
  match FrameType.ofByte frame.typeByte with
  | some .data =>
      known ∧ frame.payloadSize ≠ 0 →
        frame.contentOffset 0 + frame.padLength ≤ frame.payloadSize
  | some .headers =>
      frame.contentOffset frame.priorityFields + frame.padLength ≤ frame.payloadSize
  | some .rstStream => 4 ≤ frame.payloadSize
  | some .windowUpdate => 4 ≤ frame.payloadSize
  | _ => True

instance (known : Bool) : Decidable (frame.WellSized known) := by
  unfold WellSized
  split <;> infer_instance

/-- The complete frame that `from_buffer` and `check` accept, if they do. -/
def accept (bytes : Span) (maxFrameSize : Nat) : Option FrameAnalyzer :=
  match fromBuffer bytes with
  | .error _ => none
  | .ok frame =>
      if frame.check maxFrameSize = .ok () ∧ frame.isComplete then some frame else none

variable {frame}

private theorem complete_of_accept {bytes : Span} {maxFrameSize : Nat}
    (accepted : accept bytes maxFrameSize = some frame) : frame.isComplete := by
  unfold accept at accepted
  split at accepted
  · cases accepted
  · simp only [Option.ite_none_right_eq_some, Option.some.injEq] at accepted
    obtain ⟨⟨-, complete⟩, rfl⟩ := accepted
    exact complete

private theorem inside_iff (complete : frame.isComplete) (range : Range) :
    frame.Inside range ↔ range.offset + range.count ≤ frame.payloadSize := by
  have present : headerSize + frame.payloadSize ≤ frame.buffer.size := of_decide_eq_true complete
  unfold Inside
  omega

/-- So is the size of the payload. -/
theorem payloadSize_lt : frame.payloadSize < 2 ^ 24 := readLength_lt frame.buffer

/-- `from_buffer` takes as much of the frame as there is, if there is a header. -/
theorem fromBuffer_cases (buffer : Span) :
    buffer.size < headerSize ∧
        fromBuffer buffer = .error (.lengthError "not enought data for a valid frame") ∨
      headerSize ≤ buffer.size ∧ ∃ frame, fromBuffer buffer = .ok frame ∧
        frame.buffer = buffer.first (min (headerSize + readLength buffer) buffer.size) := by
  unfold fromBuffer
  split
  · rename_i short
    exact .inl ⟨short, rfl⟩
  · rename_i long
    exact .inr ⟨Nat.not_lt.mp long, _, rfl, rfl⟩

/-- The analyzer reads the memory that it was given. -/
theorem mem_fromBuffer {buffer : Span} (read : fromBuffer buffer = .ok frame) :
    frame.buffer.mem = buffer.mem := by
  rcases fromBuffer_cases buffer with ⟨-, failed⟩ | ⟨-, other, found, same⟩
  · cases read.symm.trans failed
  · cases read.symm.trans found
    rw [same, Span.mem_first]

/-- The type of a frame is its fourth byte. -/
theorem typeByte_fromBuffer {buffer : Span} (read : fromBuffer buffer = .ok frame) :
    frame.typeByte = buffer.mem 3 := by
  rw [typeByte, mem_fromBuffer read]

/-- The flags of a frame are its fifth byte. -/
theorem flags_fromBuffer {buffer : Span} (read : fromBuffer buffer = .ok frame) :
    frame.flags = buffer.mem 4 := by
  rw [flags, mem_fromBuffer read]

/-- The content lies in the payload exactly when the bytes around it do, and so
does the pad byte then. -/
theorem content_inside_iff (complete : frame.isComplete) {extra : Nat} (small : extra ≤ 5) :
    (∀ range ∈ frame.content extra :: (if frame.isPadded then [⟨0, 1⟩] else []),
        frame.Inside range) ↔
      frame.contentOffset extra + frame.padLength ≤ frame.payloadSize := by
  have bound : frame.payloadSize < 2 ^ 24 := payloadSize_lt
  have pad : frame.padLength < 256 := by
    unfold padLength
    split
    · exact UInt8.toNat_lt _
    · decide
  have offset : frame.contentOffset extra ≤ 6 := by
    unfold contentOffset
    split <;> omega
  simp only [inside_iff complete, List.forall_mem_cons]
  constructor
  · rintro ⟨inside, -⟩
    change frame.contentOffset extra + (frame.payloadSize + 2 ^ 64 - frame.contentOffset extra -
      frame.padLength) % 2 ^ 64 ≤ frame.payloadSize at inside
    omega
  · intro fits
    refine ⟨?_, ?_⟩
    · change frame.contentOffset extra + (frame.payloadSize + 2 ^ 64 -
        frame.contentOffset extra - frame.padLength) % 2 ^ 64 ≤ frame.payloadSize
      omega
    · intro range member
      unfold contentOffset at fits
      split at member
      · rename_i padded
        rw [if_pos padded] at fits
        cases List.mem_singleton.mp member
        change 0 + 1 ≤ frame.payloadSize
        omega
      · exact absurd member List.not_mem_nil

/-- **Field access.** In a complete frame that `from_buffer` and `check` accept,
all ranges the handlers take lie in the payload if and only if the sizes fit:
padding and priority fields in a HEADERS frame, padding in a DATA frame that is not empty
and whose stream is there, and four bytes in an RST_STREAM or WINDOW_UPDATE frame. -/
theorem handlerRanges_inside_iff (bytes : Span) (maxFrameSize : Nat) (frame : FrameAnalyzer)
    (known : Bool) (accepted : accept bytes maxFrameSize = some frame) :
    (∀ range ∈ frame.handlerRanges known, frame.Inside range) ↔ frame.WellSized known := by
  have complete := complete_of_accept accepted
  have priorities : frame.priorityFields ≤ 5 := by
    unfold priorityFields
    split <;> decide
  have nothing : (∀ range ∈ ([] : List Range), frame.Inside range) ↔ True :=
    iff_true_intro fun _ member => nomatch member
  have single : ∀ range, (∀ other ∈ [range], frame.Inside other) ↔
      range.offset + range.count ≤ frame.payloadSize := by
    intro range
    rw [List.forall_mem_singleton, inside_iff complete]
  unfold handlerRanges WellSized
  cases FrameType.ofByte frame.typeByte with
  | none => exact nothing
  | some type =>
      cases type with
      | data =>
          simp only
          by_cases taken : known = true ∧ frame.payloadSize ≠ 0
          · rw [if_pos taken, imp_iff_right taken]
            exact content_inside_iff complete (Nat.zero_le _)
          · rw [if_neg taken]
            exact nothing.trans (iff_of_true trivial fun given => absurd given taken)
      | headers => exact content_inside_iff complete priorities
      | continuation =>
          exact (single _).trans (iff_true_intro (Nat.le_of_eq (Nat.zero_add _)))
      | settings =>
          simp only
          split
          · exact nothing
          · refine (single _).trans (iff_true_intro ?_)
            change 0 + frame.payloadSize / 6 * 6 ≤ frame.payloadSize
            omega
      | rstStream => exact single code
      | windowUpdate => exact single windowSize
      | priority => exact nothing
      | pushPromise => exact nothing
      | ping => exact nothing
      | goaway => exact nothing

/-- A DATA frame of a known stream, with one byte of content and one of padding. -/
theorem handlerRanges_inside_padded : ∃ frame,
    accept (Span.ofBytes (fun _ => 0xff) [0, 0, 3, 0, 8, 0, 0, 0, 1, 1, 0x61, 0]) 16384 =
        some frame ∧
      ∀ range ∈ frame.handlerRanges true, frame.Inside range := by
  have found : (accept (Span.ofBytes (fun _ => 0xff)
      [0, 0, 3, 0, 8, 0, 0, 0, 1, 1, 0x61, 0]) 16384).any fun frame => frame.WellSized true := by
    decide +kernel
  obtain ⟨frame, accepted, sized⟩ := (Option.any_eq_true _ _).mp found
  exact ⟨frame, accepted,
    (handlerRanges_inside_iff _ _ frame true accepted).mpr (of_decide_eq_true sized)⟩

-- nothing is read of an empty DATA frame, not even its pad byte
example : (accept (Span.ofBytes (fun _ => 0xff) [0, 0, 0, 0, 8, 0, 0, 0, 1]) 16384).any
    fun frame => frame.handlerRanges true = [] ∧ frame.WellSized true := by
  decide +kernel

/-- A DATA frame with one payload byte that announces 255 bytes of padding is
accepted, and its content is a range of nearly `2 ^ 64` bytes. -/
theorem handlerRanges_outside :
    (accept (Span.ofBytes (fun _ => 0) [0, 0, 1, 0, 8, 0, 0, 0, 1, 0xff]) 16384).any fun frame =>
      frame.data = ⟨1, 2 ^ 64 - 255⟩ ∧ ¬ ∀ range ∈ frame.handlerRanges true, frame.Inside range := by
  decide +kernel

end FrameAnalyzer

end H2pp.Http2

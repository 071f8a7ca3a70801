import H2pp.Http2.SettingsManager

/-! # Frames are read back

The builders write frames field by field, some fields in network order, some as they lie
in memory, and the analyzer reads them in place through the frame structs. Every builder
and its reader cancel, except for one: `reset` swaps an error code whose enumerators are
already in network order, while `goaway` and both readers do not.
-/

namespace H2pp

/-- A swapped number is again one of 32 bits. -/
theorem nativeToBig32_lt (x : Nat) : nativeToBig32 x < 2 ^ 32 :=
  Nat.or_lt_two_pow (Nat.and_lt_two_pow _ (by decide)) (Nat.and_lt_two_pow _ (by decide))

namespace Http2

open Utils

namespace FrameAnalyzer

variable {frame : FrameAnalyzer}

/-- The bytes of a range in which content was stored. -/
theorem span_bytes {range : Range} {content : Bytes}
    (held : frame.buffer.Holds (headerSize + range.offset) content)
    (sized : range.count = content.length) : (frame.span range).bytes = content := by
  rw [span, sized]
  exact held.bytes_eq

/-- Without padding and further fields, the content is the whole payload. -/
theorem content_unpadded (unpadded : frame.flags &&& Flags.padded = 0) :
    frame.content 0 = ⟨0, frame.payloadSize⟩ := by
  have none_padded : frame.isPadded = false := decide_eq_false (not_not.mpr unpadded)
  have bound : frame.payloadSize < 2 ^ 24 := payloadSize_lt
  have count : (frame.payloadSize + 2 ^ 64 - 0 - 0) % 2 ^ 64 = frame.payloadSize := by omega
  simp only [content, contentOffset, padLength, none_padded, Bool.false_eq_true, ↓reduceIte,
    Nat.add_zero, count]

/-- Without padding and priority the block is the payload. -/
theorem headerBlock_unpadded (unpadded : frame.flags &&& Flags.padded = 0)
    (unprioritized : frame.flags &&& Flags.priority = 0) :
    frame.headerBlock = ⟨0, frame.payloadSize⟩ := by
  rw [headerBlock, priorityFields, if_neg (not_not.mpr unprioritized), content_unpadded unpadded]

end FrameAnalyzer

/-- The values are those of the source's types. -/
structure Settings.Valid (settings : Settings) : Prop where
  headerTableSize : settings.headerTableSize < 2 ^ 32
  enablePush : settings.enablePush = 0 ∨ settings.enablePush = nativeToBig32 1
  maxConcurrentStreams : settings.maxConcurrentStreams < 2 ^ 32
  initialWindowSize : settings.initialWindowSize < 2 ^ 32
  maxFrameSize : settings.maxFrameSize < 2 ^ 32
  maxHeaderListSize : settings.maxHeaderListSize < 2 ^ 32

namespace SettingsManager

/-- An item of a SETTINGS frame at some place in memory. -/
def readItem (span : Span) (offset : Nat) : Nat × Nat :=
  ((span.mem offset).toNat * 2 ^ 8 + (span.mem (offset + 1 : Nat)).toNat,
    readBig32 span (offset + 2))

private theorem readItem_of_holds {span : Span} {offset : Nat} {item : Nat × Nat}
    (held : span.Holds offset (FrameBuilder.settingsItem item)) (type : item.1 < 2 ^ 16)
    (value : item.2 < 2 ^ 32) : readItem span offset = item := by
  obtain ⟨front, back⟩ := Span.holds_append.mp held
  have high : span.mem offset = _ := front 0 _ rfl
  have low := front 1 _ rfl
  refine Prod.ext ?_ (readBig32_of_holds back value)
  rw [readItem, high, low]
  simp only [UInt8.toNat_ofNat']
  omega

private theorem map_readItem_of_holds {span : Span} {offset : Nat} {fields : List (Nat × Nat)}
    (held : span.Holds offset (fields.flatMap FrameBuilder.settingsItem))
    (values : ∀ item ∈ fields, item.1 < 2 ^ 16 ∧ item.2 < 2 ^ 32) :
    (List.range fields.length).map (fun index => readItem span (offset + 6 * index)) = fields := by
  induction fields generalizing offset with
  | nil => rfl
  | cons item fields ih =>
      rw [List.flatMap_cons, Span.holds_append] at held
      obtain ⟨⟨type, value⟩, others⟩ := List.forall_mem_cons.mp values
      have next : ∀ index, offset + 6 * (index + 1) = offset + 6 + 6 * index := by
        intro index
        omega
      rw [List.length_cons, List.range_succ_eq_map, List.map_cons, List.map_map]
      refine congrArg₂ List.cons (readItem_of_holds held.1 type value) ?_
      simp only [Function.comp_def, Nat.succ_eq_add_one, next]
      exact ih held.2 others

/-- The items that a SETTINGS frame was built from. -/
theorem readItems_of_shows {frame : FrameAnalyzer} {fields : List (Nat × Nat)}
    (shown : frame.Shows (FrameBuilder.settings fields)) (short : 6 * fields.length < 2 ^ 24)
    (values : ∀ item ∈ fields, item.1 < 2 ^ 16 ∧ item.2 < 2 ^ 32) :
    readItems frame = fields := by
  have count : frame.payloadSize / 6 = fields.length := by
    rw [shown.payloadSize]
    change 6 * fields.length % 2 ^ 24 / 6 = fields.length
    omega
  rw [readItems, count]
  exact map_readItem_of_holds shown.payload values

/-- Settings are applied item by item, in the order in which they were sent. -/
theorem onSettingsFrame_of_shows {frame : FrameAnalyzer} {fields : List (Nat × Nat)}
    (shown : frame.Shows (FrameBuilder.settings fields)) (short : 6 * fields.length < 2 ^ 24)
    (values : ∀ item ∈ fields, item.1 < 2 ^ 16 ∧ item.2 < 2 ^ 32) (manager : SettingsManager) :
    (manager.onSettingsFrame frame).1.remoteSettings =
      fields.foldl applyItem manager.remoteSettings := by
  have unset : (FrameBuilder.settings fields).flags &&& Flags.ack = 0 := UInt8.zero_and
  have flags : ¬ frame.flags &&& Flags.ack ≠ 0 := by
    rw [shown.flags, unset]
    exact not_not.mpr rfl
  rw [onSettingsFrame, if_neg flags, readItems_of_shows shown short values]

/-- The items that `initiate_sync_settings` sends. -/
def sentItems (settings : Settings) : List (Nat × Nat) :=
  [(1, settings.headerTableSize), (2, settings.enablePush), (3, settings.maxConcurrentStreams),
    (4, settings.initialWindowSize), (5, settings.maxFrameSize), (6, settings.maxHeaderListSize)]

private theorem sentItems_values {settings : Settings} (valid : settings.Valid) :
    ∀ item ∈ sentItems settings, item.1 < 2 ^ 16 ∧ item.2 < 2 ^ 32 := by
  have push : settings.enablePush < 2 ^ 32 := by
    rcases valid.enablePush with off | on
    · rw [off]
      decide
    · rw [on]
      exact nativeToBig32_lt 1
  simp only [sentItems, List.forall_mem_cons, List.not_mem_nil, false_implies, implies_true,
    and_true]
  exact ⟨⟨by decide, valid.headerTableSize⟩, ⟨by decide, push⟩,
    ⟨by decide, valid.maxConcurrentStreams⟩, ⟨by decide, valid.initialWindowSize⟩,
    ⟨by decide, valid.maxFrameSize⟩, ⟨by decide, valid.maxHeaderListSize⟩⟩

/-- The items carry all settings but CONNECT_PROTOCOL. ENABLE_PUSH is sent swapped, but
only compared with zero. -/
theorem foldl_sentItems {settings : Settings} (valid : settings.Valid) (remote : Settings) :
    (sentItems settings).foldl applyItem remote =
      { settings with connectionProtocol := remote.connectionProtocol } := by
  have push : (if settings.enablePush = 0 then 0 else nativeToBig32 1) = settings.enablePush := by
    rcases valid.enablePush with off | on
    · rw [off, if_pos rfl]
    · rw [on, if_neg (by decide)]
  simp only [sentItems, List.foldl_cons, List.foldl_nil, applyItem, push]

/-- **Settings arrive.** A peer that reads settings as the client does takes over those
that the client sends. -/
theorem onSettingsFrame_initiateSyncSettings {client after server : SettingsManager}
    {settings : Settings} {remoteSync : Bool} {sent : OutFrame} (valid : settings.Valid)
    (started : client.initiateSyncSettings settings remoteSync = .ok (after, sent))
    (around : Int → UInt8) (rest : Bytes) :
    ∃ frame, FrameAnalyzer.fromBuffer (Span.ofBytes around (sent.bytes ++ rest)) = .ok frame ∧
      (server.onSettingsFrame frame).1.remoteSettings =
        { settings with connectionProtocol := server.remoteSettings.connectionProtocol } := by
  have built : sent = FrameBuilder.settings (sentItems settings) := by
    rw [initiateSyncSettings] at started
    split at started <;> cases started
    rfl
  have short : 6 * (sentItems settings).length < 2 ^ 24 := (by decide : 36 < 2 ^ 24)
  have length : sent.length < 2 ^ 24 := by
    rw [built]
    exact Nat.mod_lt _ (Nat.two_pow_pos 24)
  have identified : sent.streamId < 2 ^ 32 := by
    rw [built]
    exact Nat.two_pow_pos 32
  obtain ⟨frame, read, -, shown⟩ :=
    FrameAnalyzer.fromBuffer_shows length identified around rest
  rw [built] at shown
  refine ⟨frame, read, ?_⟩
  rw [onSettingsFrame_of_shows shown short (sentItems_values valid), foldl_sentItems valid]

end SettingsManager

namespace FrameBuilder

/-- A call of a builder, with arguments of the widths the source gives them. -/
inductive Call
  | goaway (err lastStreamId : UInt32) (additional : Bytes)
  | reset (err streamId : UInt32)
  | updateWindow (size streamId : UInt32)
  | settings (fields : List (UInt16 × UInt32))
  | settingsAck
  | headers (streamId : UInt32) (flags : UInt8) (payloadSize : UInt32)
  | continuation (streamId : UInt32) (flags : UInt8) (payloadSize : UInt32)
  | data (streamId : UInt32) (flags : UInt8) (payloadSize : UInt32)
  deriving DecidableEq, Repr

namespace Call

/-- The items of a call of `settings` as numbers. -/
def numbers (fields : List (UInt16 × UInt32)) : List (Nat × Nat) :=
  fields.map fun item => (item.1.toNat, item.2.toNat)

/-- The frame that is built. -/
def built : Call → OutFrame
  | goaway err lastStreamId additional =>
      FrameBuilder.goaway err.toNat lastStreamId.toNat additional
  | reset err streamId => FrameBuilder.reset err.toNat streamId.toNat
  | updateWindow size streamId => FrameBuilder.updateWindow size.toNat streamId.toNat
  | settings fields => FrameBuilder.settings (numbers fields)
  | settingsAck => FrameBuilder.settingsAck
  | headers streamId flags size => FrameBuilder.headers streamId.toNat flags size.toNat
  | continuation streamId flags size => FrameBuilder.continuation streamId.toNat flags size.toNat
  | data streamId flags size => (FrameBuilder.data streamId.toNat flags size.toNat).1

/-! What the call asks for. -/

def type : Call → FrameType
  | goaway .. => .goaway
  | reset .. => .rstStream
  | updateWindow .. => .windowUpdate
  | settings .. => .settings
  | settingsAck => .settings
  | headers .. => .headers
  | continuation .. => .continuation
  | data .. => .data

def flags : Call → UInt8
  | settingsAck => Flags.ack
  | headers _ flags _ => flags
  | continuation _ flags _ => flags
  | data _ flags _ => flags
  | _ => 0

def streamId : Call → Nat
  | reset _ streamId => streamId.toNat
  | updateWindow _ streamId => streamId.toNat
  | headers streamId _ _ => streamId.toNat
  | continuation streamId _ _ => streamId.toNat
  | data streamId _ _ => streamId.toNat
  | _ => 0

def payloadSize : Call → Nat
  | goaway _ _ additional => 8 + additional.length
  | reset .. => 4
  | updateWindow .. => 4
  | settings fields => 6 * fields.length
  | settingsAck => 0
  | headers _ _ size => size.toNat
  | continuation _ _ size => size.toNat
  | data _ _ size => size.toNat

/-- The payload fits into a frame, and the flags are neither PADDED nor PRIORITY. -/
structure Fits (call : Call) : Prop where
  short : call.payloadSize < 2 ^ 24
  unpadded : call.flags &&& Flags.padded = 0
  unprioritized : call.flags &&& Flags.priority = 0

/-- The block is the payload: its size is the announced one, and its bytes are those that
follow the header. -/
def BlockRead (size : Nat) (rest : Bytes) (frame : FrameAnalyzer)
    (block : FrameAnalyzer.Range) : Prop :=
  block = ⟨0, size⟩ ∧ (size ≤ rest.length → (frame.span block).bytes = rest.take size)

/-- The fields of the frame have the values of the arguments. `rest` is what follows the
bytes of the builder. -/
def FieldsRead (call : Call) (rest : Bytes) (frame : FrameAnalyzer) : Prop :=
  match call with
  | goaway err lastStreamId additional =>
      frame.goawayError = err.toNat ∧ frame.lastStreamId = lastStreamId.toNat ∧
        (frame.span frame.additional).bytes = additional
  | reset err _ => readNative32 frame.buffer headerSize = err.toNat
  | updateWindow size _ => readBig32 frame.buffer headerSize = size.toNat
  | settings fields =>
      SettingsManager.readItems frame = numbers fields ∧
        ∀ manager : SettingsManager, (manager.onSettingsFrame frame).1.remoteSettings =
          (numbers fields).foldl SettingsManager.applyItem manager.remoteSettings
  | settingsAck => SettingsManager.readItems frame = [] ∧ SettingsManager.isAck frame
  | headers _ _ size => BlockRead size.toNat rest frame frame.headerBlock
  | continuation _ _ size => BlockRead size.toNat rest frame frame.continuationBlock
  | data _ _ size => BlockRead size.toNat rest frame frame.data

/-- The frame is read back from its bytes, followed by any others, with its type, its flags,
its stream, its size and its fields. -/
def ReadsBack (call : Call) : Prop :=
  ∀ (around : Int → UInt8) (rest : Bytes), ∃ analyzer frame,
    FrameAnalyzer.fromBuffer (Span.ofBytes around (call.built.bytes ++ rest)) = .ok analyzer ∧
      analyzer.getFrame call.type = .ok frame ∧ frame.flags = call.flags ∧
      frame.streamId = call.streamId ∧ frame.payloadSize = call.payloadSize ∧
      call.FieldsRead rest frame

/-- The error code of a call of `reset` is the same when its bytes are swapped. -/
def Symmetric : Call → Prop
  | reset err _ => nativeToBig32 err.toNat = err.toNat
  | _ => True

/-- The builder writes the header that the call asks for. -/
theorem built_header {call : Call} (fits : call.Fits) :
    call.built.type = call.type ∧ call.built.flags = call.flags ∧
      call.built.streamId = call.streamId ∧ call.built.length = call.payloadSize := by
  have length : call.payloadSize % 2 ^ 24 = call.payloadSize := Nat.mod_eq_of_lt fits.short
  cases call with
  | settings fields =>
      refine ⟨rfl, rfl, rfl, ?_⟩
      rw [payloadSize] at length
      rw [payloadSize, ← length, ← fields.length_map]
      rfl
  | _ => exact ⟨rfl, rfl, rfl, length⟩

private theorem built_streamId_lt (call : Call) : call.built.streamId < 2 ^ 32 := by
  cases call with
  | reset err streamId => exact streamId.toNat_lt
  | updateWindow size streamId => exact streamId.toNat_lt
  | headers streamId => exact streamId.toNat_lt
  | continuation streamId => exact streamId.toNat_lt
  | data streamId => exact streamId.toNat_lt
  | _ => exact Nat.two_pow_pos 32

private theorem blockRead_of_holds {size : Nat} {rest : Bytes} {frame : FrameAnalyzer}
    (held : frame.buffer.Holds headerSize rest) : BlockRead size rest frame ⟨0, size⟩ := by
  refine ⟨rfl, fun enough => FrameAnalyzer.span_bytes ?_ (List.length_take_of_le enough).symm⟩
  rw [← List.take_append_drop size rest, Span.holds_append] at held
  exact held.1

/-- The fields of a frame that shows what was built are those of the call, unless `reset`
has swapped the error code. -/
theorem fieldsRead_iff {call : Call} (fits : call.Fits) {frame : FrameAnalyzer} {rest : Bytes}
    (shown : frame.Shows call.built)
    (behind : frame.buffer.Holds (headerSize + call.built.payload.length) rest) :
    call.FieldsRead rest frame ↔ call.Symmetric := by
  obtain ⟨-, flags, -, length⟩ := built_header fits
  have size := shown.payloadSize.trans length
  have unpadded : frame.flags &&& Flags.padded = 0 := by
    rw [shown.flags, flags, fits.unpadded]
  have unprioritized : frame.flags &&& Flags.priority = 0 := by
    rw [shown.flags, flags, fits.unprioritized]
  cases call with
  | goaway err lastStreamId additional =>
      obtain ⟨front, additionalHeld⟩ := Span.holds_append.mp shown.payload
      obtain ⟨lastHeld, errHeld⟩ := Span.holds_append.mp front
      refine iff_of_true ⟨readNative32_of_holds errHeld err.toNat_lt,
        readNative32_of_holds lastHeld lastStreamId.toNat_lt,
        FrameAnalyzer.span_bytes additionalHeld ?_⟩ trivial
      have short : 8 + additional.length < 2 ^ 24 := fits.short
      change (frame.payloadSize + 9 + 2 ^ 64 - 17) % 2 ^ 64 = additional.length
      rw [size, payloadSize]
      omega
  | reset err streamId =>
      have read := readNative32_of_holds shown.payload (nativeToBig32_lt err.toNat)
      rw [FieldsRead, read, Symmetric]
  | updateWindow increment streamId =>
      exact iff_of_true (readBig32_of_holds shown.payload increment.toNat_lt) trivial
  | settings fields =>
      have short : 6 * (numbers fields).length < 2 ^ 24 := by
        rw [numbers, List.length_map]
        exact fits.short
      have values : ∀ item ∈ numbers fields, item.1 < 2 ^ 16 ∧ item.2 < 2 ^ 32 :=
        List.forall_mem_map.mpr fun item _ => ⟨item.1.toNat_lt, item.2.toNat_lt⟩
      exact iff_of_true ⟨SettingsManager.readItems_of_shows shown short values,
        SettingsManager.onSettingsFrame_of_shows shown short values⟩ trivial
  | settingsAck =>
      refine iff_of_true ⟨?_, ?_⟩ trivial
      · rw [SettingsManager.readItems, size]
        rfl
      · rw [SettingsManager.isAck, shown.flags]
        rfl
  | headers streamId flags payload =>
      rw [FieldsRead, FrameAnalyzer.headerBlock_unpadded unpadded unprioritized, size]
      exact iff_of_true (blockRead_of_holds behind) trivial
  | continuation streamId flags payload =>
      rw [FieldsRead, FrameAnalyzer.continuationBlock, size]
      exact iff_of_true (blockRead_of_holds behind) trivial
  | data streamId flags payload =>
      rw [FieldsRead, FrameAnalyzer.data, FrameAnalyzer.content_unpadded unpadded, size]
      exact iff_of_true (blockRead_of_holds behind) trivial

/-- The frame that is built is found again, with its header. -/
theorem read_built {call : Call} (fits : call.Fits) (around : Int → UInt8) (rest : Bytes) :
    ∃ frame,
      FrameAnalyzer.fromBuffer (Span.ofBytes around (call.built.bytes ++ rest)) = .ok frame ∧
        frame.getFrame call.type = .ok frame ∧ frame.Shows call.built ∧
        frame.buffer.Holds (headerSize + call.built.payload.length) rest := by
  obtain ⟨type, -, -, length⟩ := built_header fits
  have short : call.built.length < 2 ^ 24 := length ▸ fits.short
  obtain ⟨frame, read, memory, shown⟩ :=
    FrameAnalyzer.fromBuffer_shows short call.built_streamId_lt around rest
  have all : frame.buffer.Holds 0 (call.built.bytes ++ rest) := by
    rw [Span.Holds, memory]
    exact Span.holds_ofBytes around _
  have behind := (Span.holds_append.mp all).2
  rw [OutFrame.length_bytes, Nat.zero_add] at behind
  refine ⟨frame, read, if_neg ?_, shown, behind⟩
  rw [shown.type, type]
  exact not_not.mpr rfl

/-- **Builders and analyzer.** A frame that one of the builders writes is read back with
its type, flags, stream, size and fields, whatever follows it, if and only if it is not
one of `reset` with an error code that changes when its bytes are swapped. -/
theorem readsBack_iff (call : Call) (fits : call.Fits) : call.ReadsBack ↔ call.Symmetric := by
  constructor
  · intro reads
    obtain ⟨analyzer, frame, read, taken, -, -, -, fields⟩ := reads (fun _ => 0) []
    obtain ⟨found, same, direct, shown, behind⟩ := read_built fits (fun _ => 0) []
    cases same.symm.trans read
    cases direct.symm.trans taken
    exact (fieldsRead_iff fits shown behind).mp fields
  · intro symmetric around rest
    obtain ⟨-, flags, stream, length⟩ := built_header fits
    obtain ⟨frame, read, taken, shown, behind⟩ := read_built fits around rest
    exact ⟨frame, frame, read, taken, shown.flags.trans flags, shown.streamId.trans stream,
      shown.payloadSize.trans length, (fieldsRead_iff fits shown behind).mpr symmetric⟩

/-- Of the enumerators of `error_code` only IS_OK stays the same. -/
example : ∀ code < 14,
    nativeToBig32 (nativeToBig32 code) = nativeToBig32 code ↔ code = 0 := by
  decide +kernel

/-- The first item of the settings that the client sends. -/
theorem readsBack_tableSize : (settings [(1, 4096)]).ReadsBack :=
  (readsBack_iff _ ⟨by decide, by decide, by decide⟩).mpr trivial

/-- CANCEL, the bytes 0 0 0 8 in memory, is read back as the bytes 8 0 0 0. -/
theorem reset_swapped :
    ¬ (reset 0x08000000 0x01000000).ReadsBack ∧ ∃ frame,
      FrameAnalyzer.fromBuffer
          (Span.ofBytes (fun _ => 0) (reset 0x08000000 0x01000000).built.bytes) = .ok frame ∧
        readNative32 frame.buffer headerSize = 8 := by
  refine ⟨fun reads => ?_, _, rfl, by decide +kernel⟩
  obtain ⟨analyzer, frame, read, taken, -, -, -, fields⟩ := reads (fun _ => 0) []
  cases read
  cases taken
  revert fields
  change ¬ readNative32 _ headerSize = 0x08000000
  decide +kernel

end Call

end FrameBuilder

end Http2

end H2pp

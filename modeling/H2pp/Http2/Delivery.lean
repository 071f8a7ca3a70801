import H2pp.Hpack.Pieces
import H2pp.Hpack.Session
import H2pp.Http2.Transmission
import H2pp.Http2.WireOutput

/-! # Requests that are read back

What the client writes is read back with the library's own `rfc7541::decoder`. The bytes of
the connection are cut into frames, and all header blocks go through one decoder with the
default table, whatever streams they belong to and whatever the settings are. The parts of a
request are put together by the number in the frames. What was read of a request, followed by
what the stream has still to send, is the request.
-/

namespace H2pp.Hpack

open Utils

/-- A field that a decoder reads back from every representation the encoder may choose. -/
def HeaderField.Portable (config : EncoderConfig) (field : HeaderField) : Prop :=
  (field.type = .default → StaticTable.Known field.name) ∧ Sendable config field.value ∧
    (¬ StaticTable.Known field.name → Sendable config field.name)

instance (config : EncoderConfig) (field : HeaderField) : Decidable (field.Portable config) :=
  inferInstanceAs (Decidable (_ ∧ _))

variable {lowerBound : LowerBound}

private theorem allMeet_of_portable {config : EncoderConfig} {fields : List HeaderField}
    (portable : ∀ field ∈ fields, field.Portable config) (table : IndexedDynamicTable) :
    AllMeet lowerBound config table fields := by
  induction fields generalizing table with
  | nil => trivial
  | cons field fields ih =>
      obtain ⟨known, value, name⟩ := portable field List.mem_cons_self
      exact ⟨⟨known, .inr value, name⟩,
        ih (fun other member => portable other (List.mem_cons_of_mem _ member)) _⟩

/-- The size is additive. -/
theorem fieldsSize_append (first second : List HeaderField) :
    fieldsSize (first ++ second) = fieldsSize first + fieldsSize second := by
  rw [fieldsSize, List.map_append, List.sum_append, fieldsSize, fieldsSize]

/-- The loop of `encode` counts no more fields than there are. -/
theorem EncodeState.encodeLoop_count_le {config : EncoderConfig} {state final : EncodeState}
    {fields : List HeaderField} (room : state.bytesLeft ≤ state.out.left)
    (done : state.encodeLoop lowerBound config fields = .ok final) :
    final.encodedFields ≤ state.encodedFields + fields.length := by
  induction fields generalizing state with
  | nil =>
      cases done
      exact Nat.le_refl _
  | cons field fields ih =>
      obtain ⟨result, encoded, rest⟩ := Outcome.bind_eq_ok.mp done
      cases result with
      | none =>
          cases rest
          exact Nat.le_add_right _ _
      | some next =>
          obtain ⟨bytes, round⟩ := encodeField_round room encoded
          have counted := round.counted
          have later := ih round.room rest
          rw [List.length_cons]
          omega

/-- **One call.** A decoder with a linked table reads from the buffers of a call of `encode`
the fields that the call has counted. -/
theorem Encoder.encode_decode {encoder after : Encoder} {decoder : Decoder}
    {fields : List HeaderField} {limit count : Nat} {buffers : List Buffer} {block : Span}
    (linked : Linked encoder.table decoder.table)
    (portable : ∀ field ∈ fields, field.Portable encoder.config)
    (bound : decoder.table.tableSize + fieldsSize fields < 2 ^ 63)
    (encoded : encoder.encode lowerBound fields limit = .ok (buffers, count, after))
    (written : block.bytes = buffers.flatMap Buffer.data) :
    ∃ read : Decoder, decoder.decode block = (read, .ok (fields.take count)) ∧
        Linked after.table read.table ∧
        read.table.tableSize ≤ decoder.table.tableSize + fieldsSize (fields.take count) := by
  have split := fieldsSize_append (fields.take count) (fields.drop count)
  rw [List.take_append_drop] at split
  obtain ⟨_, _, alone⟩ := encode_appends encoded
  obtain ⟨final, done, rest⟩ := Outcome.bind_eq_ok.mp alone
  cases rest
  have counted : final.encodedFields = (fields.take final.encodedFields).length := by
    have few := EncodeState.encodeLoop_count_le (Nat.le_refl _) done
    rw [List.length_take] at few ⊢
    simp only [Nat.zero_add] at few
    omega
  obtain ⟨bytes, read, contents, linkedNext, grown, decodes⟩ := encodeLoop_decodeLoop linked
    (Nat.le_refl _) (by omega)
    (allMeet_of_portable (fun field member => portable field (List.mem_of_mem_take member)) _)
    done (counted.trans (Nat.zero_add _).symm)
  have content : final.out.flush.1.flatMap Buffer.data = bytes := by
    rw [EncoderStream.flush, Streambuf.flush_contents, contents]
    rfl
  refine ⟨⟨read⟩, ?_, linkedNext, grown⟩
  rw [Decoder.decode, decodes _ _ [] (written.trans content)
    (by rw [← Span.length_bytes, written, content]), List.nil_append]

end H2pp.Hpack

namespace H2pp.Http2

open Utils Hpack

/-! ## Reading frames back -/

/-- What a frame brings to a request. -/
inductive Content
  | fields (fields : List HeaderField)
  | body (bytes : Bytes)

namespace Content

/-- The header fields among it. -/
def headerFields : Content → List HeaderField
  | .fields decoded => decoded
  | .body _ => []

/-- The bytes of the body among it. -/
def bodyBytes : Content → Bytes
  | .fields _ => []
  | .body payload => payload

/-- What has come for the stream with a number. -/
def arrived {Item : Type} (select : Content → List Item) (number : Nat)
    (parts : List (Nat × Content)) : List Item :=
  (parts.filter (·.1 = number)).flatMap fun part => select part.2

section Arrived

variable {Item : Type} {select : Content → List Item} {number other : Nat}
  {parts : List (Nat × Content)}

@[simp] private theorem arrived_append (first second : List (Nat × Content)) :
    arrived select number (first ++ second) =
      arrived select number first ++ arrived select number second := by
  rw [arrived, List.filter_append, List.flatMap_append, arrived, arrived]

private theorem arrived_own (own : ∀ part ∈ parts, part.1 = number) :
    arrived select number parts = parts.flatMap fun part => select part.2 := by
  rw [arrived, List.filter_eq_self.mpr fun part member => decide_eq_true (own part member)]

private theorem arrived_other (own : ∀ part ∈ parts, part.1 = number) (differs : number ≠ other) :
    arrived select other parts = [] := by
  rw [arrived, List.filter_eq_nil_iff.mpr, List.flatMap_nil]
  intro part member
  rw [own part member, decide_eq_true_eq]
  exact differs

end Arrived

end Content

/-- The frames of a client are read back. One `rfc7541::decoder` decodes all header blocks, in
the order of the frames, and every frame says what it brings and for which stream. The memory
around a block is `around`. -/
def readBack (around : Int → UInt8) : Machine Decoder Bytes (Nat × Content) Failure where
  step decoder frame :=
    match FrameType.ofByte (Wire.typeByte frame) with
    | some .headers | some .continuation => do
        let (after, result) := decoder.decode (Span.ofBytes around (frame.drop headerSize))
        let fields ← result
        .ok (after, [(Wire.streamId frame, .fields fields)])
    | some .data => .ok (decoder, [(Wire.streamId frame, .body (frame.drop headerSize))])
    | _ => .ok (decoder, [])

namespace ReadBack

variable {around : Int → UInt8} {decoder after : Decoder} {frame : OutFrame}

private theorem typeByte_bytes (frame : OutFrame) :
    FrameType.ofByte (Wire.typeByte frame.bytes) = some frame.type :=
  FrameType.ofByte_value frame.type

/-- A header block. -/
theorem step_block {fields : List HeaderField}
    (type : frame.type = .headers ∨ frame.type = .continuation)
    (decoded : decoder.decode (Span.ofBytes around frame.payload) = (after, .ok fields)) :
    (readBack around).step decoder frame.bytes =
      .ok (after, [(Wire.streamId frame.bytes, .fields fields)]) := by
  have payload : frame.bytes.drop headerSize = frame.payload := rfl
  rcases type with type | type <;>
    simp only [readBack, typeByte_bytes, type, payload, decoded, Outcome.ok_bind]

/-- A DATA frame. -/
theorem step_data (type : frame.type = .data) :
    (readBack around).step decoder frame.bytes =
      .ok (decoder, [(Wire.streamId frame.bytes, .body frame.payload)]) := by
  have payload : frame.bytes.drop headerSize = frame.payload := rfl
  simp only [readBack, typeByte_bytes, type, payload]

/-- Another frame. -/
theorem step_control {bytes : Bytes}
    (control : ∀ type ∈ FrameType.ofByte (Wire.typeByte bytes), type.carriesRequest = false) :
    (readBack around).step decoder bytes = .ok (decoder, []) := by
  cases known : FrameType.ofByte (Wire.typeByte bytes) with
  | none => simp only [readBack, known]
  | some type =>
      have other := control type known
      cases type with
      | headers | continuation | data => cases other
      | _ => simp only [readBack, known]

/-- Streams are named by the numbers in the frames. -/
theorem takes_numbers {frames : List Bytes} {parts : List (Nat × Content)}
    (reads : (readBack around).Takes decoder frames after parts) :
    ∀ part ∈ parts, ∃ frame ∈ frames, part.1 = Wire.streamId frame := by
  refine @Machine.run_invariant _ _ _ _ _ (fun _ event => event ∈ frames)
    (fun history : Machine.History Decoder (Nat × Content) =>
      ∀ part ∈ history.emitted, ∃ frame ∈ frames, part.1 = Wire.streamId frame)
    ?_ ⟨decoder, []⟩ _ _ (List.forall_mem_nil _)
    (Machine.along_of_mem (fun _ member => member) _) (reads [])
  intro history event next named member taken
  obtain ⟨state, out, stepped, rfl⟩ := Machine.advance_eq_ok taken
  refine List.forall_mem_append.mpr ⟨named, ?_⟩
  simp only [readBack] at stepped
  split at stepped
  · obtain ⟨_, _, same⟩ := Outcome.bind_eq_ok.mp stepped
    cases same
    exact List.forall_mem_singleton.mpr ⟨event, member, rfl⟩
  · obtain ⟨_, _, same⟩ := Outcome.bind_eq_ok.mp stepped
    cases same
    exact List.forall_mem_singleton.mpr ⟨event, member, rfl⟩
  · cases stepped
    exact List.forall_mem_singleton.mpr ⟨event, member, rfl⟩
  · cases stepped
    exact List.forall_mem_nil _

end ReadBack

/-! ## A turn of a stream -/

/-- What is written and what is read: the stream that has its turn and the encoder, and the
decoder that reads back. -/
structure Sides where
  stream : Stream
  encoder : Encoder
  decoder : Decoder

namespace Sides

/-- A bound on the size to which the table of the decoder may grow. -/
def size (sides : Sides) : Nat :=
  sides.decoder.table.tableSize + fieldsSize sides.stream.request.headerList

/-- The tables are linked, and the fields that are left can be sent. -/
structure Synced (sides : Sides) : Prop where
  linked : Linked sides.encoder.table sides.decoder.table
  portable : ∀ field ∈ sides.stream.request.headerList, field.Portable sides.encoder.config
  small : sides.size < 2 ^ 63

/-- Some frames bring what the stream has no longer to send. -/
structure Carries (around : Int → UInt8) (before : Sides) (frames : List OutFrame)
    (parts : List (Nat × Content)) (after : Sides) : Prop where
  reads : (readBack around).Takes before.decoder (frames.map OutFrame.bytes) after.decoder parts
  fields : parts.flatMap (fun part => part.2.headerFields) ++ after.stream.request.headerList =
    before.stream.request.headerList
  body : parts.flatMap (fun part => part.2.bodyBytes) ++ after.stream.unsent =
    before.stream.unsent
  linked : Linked after.encoder.table after.decoder.table
  config : after.encoder.config = before.encoder.config
  size : after.size ≤ before.size

variable {around : Int → UInt8} {before middle after : Sides} {frames more : List OutFrame}
  {parts later : List (Nat × Content)}

private theorem Carries.synced (carries : Carries around before frames parts after)
    (synced : before.Synced) : after.Synced where
  linked := carries.linked
  portable field member := by
    rw [carries.config]
    apply synced.portable
    rw [← carries.fields]
    exact List.mem_append_right _ member
  small := Nat.lt_of_le_of_lt carries.size synced.small

private theorem Carries.trans (first : Carries around before frames parts middle)
    (second : Carries around middle more later after) :
    Carries around before (frames ++ more) (parts ++ later) after where
  reads := by
    rw [List.map_append]
    exact first.reads.append second.reads
  fields := by rw [List.flatMap_append, List.append_assoc, second.fields, first.fields]
  body := by rw [List.flatMap_append, List.append_assoc, second.body, first.body]
  linked := second.linked
  config := second.config.trans first.config
  size := Nat.le_trans second.size first.size

/-- Nothing is sent, and the stream has to send the same. -/
theorem Carries.silent (linked : Linked before.encoder.table before.decoder.table)
    {stream : Stream} (headers : stream.request.headerList = before.stream.request.headerList)
    (unsent : stream.unsent = before.stream.unsent) :
    Carries around before [] [] { before with stream } where
  reads := .refl _ _
  fields := headers
  body := unsent
  linked := linked
  config := rfl
  size := by simp only [Sides.size, headers, Nat.le_refl]

/-- The stream changes, but not what it has to send. -/
theorem Carries.into (carries : Carries around before frames parts after) {stream : Stream}
    (headers : stream.request.headerList = after.stream.request.headerList)
    (unsent : stream.unsent = after.stream.unsent) :
    Carries around before frames parts { after with stream } := by
  have both := carries.trans (.silent carries.linked headers unsent)
  rwa [List.append_nil, List.append_nil] at both

/-- A frame that is not about the request. -/
theorem Carries.control (linked : Linked before.encoder.table before.decoder.table)
    {frame : OutFrame} (control : frame.type.carriesRequest = false) :
    Carries around before [frame] [] before where
  reads := .step (ReadBack.step_control fun type known => by
    rw [ReadBack.typeByte_bytes] at known
    cases known
    exact control)
  fields := rfl
  body := rfl
  linked := linked
  config := rfl
  size := Nat.le_refl _

/-- A DATA frame with the next bytes. -/
theorem Carries.data (linked : Linked before.encoder.table before.decoder.table)
    {frame : OutFrame} {stream : Stream} (type : frame.type = .data)
    (headers : stream.request.headerList = before.stream.request.headerList)
    (unsent : frame.payload ++ stream.unsent = before.stream.unsent) :
    Carries around before [frame] [(Wire.streamId frame.bytes, .body frame.payload)]
      { before with stream } where
  reads := .step (ReadBack.step_data type)
  fields := by
    rw [List.flatMap_singleton]
    exact headers
  body := by
    rw [List.flatMap_singleton]
    exact unsent
  linked := linked
  config := rfl
  size := by simp only [Sides.size, headers, Nat.le_refl]

end Sides

namespace Stream

variable {lowerBound : LowerBound} {stream : Stream} {encoder : Encoder} {decoder : Decoder}
  {limit : Nat} {turn : Turn}

open Sides (Carries)

/-- The frame with the fields that `encode` has counted. -/
theorem carries_block (around : Int → UInt8) (synced : Sides.Synced ⟨stream, encoder, decoder⟩)
    {buffers : List Buffer} {count : Nat} {after : Encoder}
    (encoded : stream.encodeHeaders lowerBound encoder limit = .ok (buffers, count, after))
    {frame : OutFrame} {next : Stream}
    (type : frame.type = .headers ∨ frame.type = .continuation)
    (payload : frame.payload = buffers.flatMap Buffer.data)
    (headers : next.request.headerList = stream.request.headerList.drop count)
    (unsent : next.unsent = stream.unsent) :
    ∃ read parts, Carries around ⟨stream, encoder, decoder⟩ [frame] parts ⟨next, after, read⟩ := by
  obtain ⟨read, decoded, linked, grown⟩ := Encoder.encode_decode synced.linked synced.portable
    synced.small encoded ((Span.bytes_ofBytes around _).trans payload)
  have split := fieldsSize_append (stream.request.headerList.take count)
    (stream.request.headerList.drop count)
  rw [List.take_append_drop] at split
  simp only at decoded grown
  refine ⟨read, _, .step (ReadBack.step_block type decoded), ?_, ?_, linked,
    (Encoder.encode_appends encoded).1, ?_⟩
  · rw [List.flatMap_singleton]
    simp only [Content.headerFields, headers, List.take_append_drop]
  · rw [List.flatMap_singleton]
    exact unsent
  · simp only [Sides.size, headers, split]
    omega

/-- `prepare_headers`. -/
theorem carries_prepared (around : Int → UInt8)
    (synced : Sides.Synced ⟨stream, encoder, decoder⟩)
    (prepared : HeadersPrepared lowerBound stream encoder limit turn) :
    ∃ read parts, Carries around ⟨stream, encoder, decoder⟩ turn.out parts
      ⟨turn.stream, turn.encoder, read⟩ := by
  cases prepared with
  | nothing encoded =>
      cases Encoder.encode_none encoded
      exact ⟨decoder, [], .silent synced.linked rfl rfl⟩
  | headers encoded some first =>
      exact carries_block around synced encoded (.inl rfl) rfl rfl rfl
  | continuation encoded some later more =>
      exact carries_block around synced encoded (.inr rfl) rfl rfl rfl
  | @closing buffers count after encoded some later all bodyless =>
      obtain ⟨read, parts, carries⟩ : ∃ read parts, Carries around ⟨stream, encoder, decoder⟩
          [{ FrameBuilder.continuation stream.httpId
              (blockFlags (stream.request.commitHeaders count))
              (buffers.flatMap Buffer.data).length with payload := buffers.flatMap Buffer.data }]
          parts ⟨{ stream with request := stream.request.commitHeaders count }, after, read⟩ :=
        carries_block around synced encoded (.inr rfl) rfl rfl rfl
      exact ⟨read, _, carries.trans (.data carries.linked rfl rfl rfl)⟩

/-- The header phase of a turn. -/
theorem carries_headerPhase (around : Int → UInt8)
    (synced : Sides.Synced ⟨stream, encoder, decoder⟩)
    (sent : stream.headerPhase lowerBound encoder limit = .ok turn) :
    ∃ read parts, Carries around ⟨stream, encoder, decoder⟩ turn.out parts
      ⟨turn.stream, turn.encoder, read⟩ := by
  obtain ⟨headers, prepared, same, encodes, out⟩ := headerPhase_spec sent
  have update : Carries around ⟨stream, encoder, decoder⟩
      (stream.localWindow.update stream.httpId).1.toList [] ⟨stream.opened, encoder, decoder⟩ := by
    unfold DummyWindow.update
    split
    · exact (Carries.control synced.linked rfl).into rfl rfl
    · exact .silent synced.linked rfl rfl
  rw [same, encodes, out]
  rcases prepared with ⟨_, prepared⟩ | ⟨_, rfl⟩
  · obtain ⟨read, parts, carries⟩ := carries_prepared around (update.synced synced) prepared
    exact ⟨read, _, update.trans carries⟩
  · rw [List.append_nil]
    exact ⟨decoder, [], update⟩

/-- `prepare_body`. -/
theorem prepareBody_unsent {after : Stream} {frame : OutFrame} {used : Nat}
    (filled : stream.prepareBody limit = .ok (after, frame, used)) :
    frame.payload ++ after.unsent = stream.unsent ∧
      after.request.headerList = stream.request.headerList := by
  by_cases short : stream.request.bodyList = [] ∨
      stream.unsent.length < (stream.dataFrame limit).2
  · rw [prepareBody_undefined short] at filled
    cases filled
  · obtain ⟨some, enough⟩ := not_or.mp short
    obtain ⟨copied, done, rest, headers, _⟩ := prepareBody_ok some (Nat.not_lt.mp enough)
    rw [done] at filled
    cases filled
    exact ⟨by rw [rest, List.take_append_drop], headers⟩

/-- **A turn.** The frames of a turn bring what the stream has no longer to send, and the table
of the decoder stays linked to that of the encoder. -/
theorem carries_getTxData (around : Int → UInt8)
    (synced : Sides.Synced ⟨stream, encoder, decoder⟩)
    (sent : stream.getTxData lowerBound encoder limit = .ok turn) :
    ∃ read parts, Carries around ⟨stream, encoder, decoder⟩ turn.out parts
      ⟨turn.stream, turn.encoder, read⟩ := by
  rcases getTxData_spec sent with
    ⟨_, rfl⟩ | ⟨_, _, rfl⟩ | ⟨_, _, headers, body, first, second, rfl⟩
  · exact ⟨decoder, [], (Carries.control synced.linked rfl).into rfl rfl⟩
  · exact ⟨decoder, [], .silent synced.linked rfl rfl⟩
  · have unscheduled : Carries around ⟨stream, encoder, decoder⟩ [] []
        ⟨{ stream with isScheduled := false }, encoder, decoder⟩ :=
      .silent synced.linked rfl rfl
    obtain ⟨read, parts, carries⟩ :=
      carries_headerPhase around (unscheduled.synced synced) first
    have carried := unscheduled.trans carries
    unfold bodyPhase at second
    split at second
    · obtain ⟨⟨after, frame, used⟩, filled, same⟩ := Outcome.bind_eq_ok.mp second
      cases same
      obtain ⟨unsent, same⟩ := prepareBody_unsent filled
      exact ⟨read, _, carried.trans
        (.data carries.linked (prepareBody_frame filled).1 same unsent)⟩
    · cases second
      exact ⟨read, _, carried.into rfl rfl⟩

end Stream

namespace Client

variable {lowerBound : LowerBound} {around : Int → UInt8} {client next : Client} {event : Event}

/-! ## All streams -/

/-- The sizes of the header fields that a stream has still to send. -/
def fieldsLeft (stream : Stream) : Nat := fieldsSize stream.request.headerList

/-- The sizes of the header fields of some requests. -/
def requestsSize (opened : List Stream) : Nat :=
  (opened.map fieldsLeft).sum

/-- Requests for which the ids last, with fields that can be read back and do not add up
to a table size that wraps around. -/
structure Permitted (opened : List Stream) : Prop where
  few : opened.length ≤ 2 ^ 30
  portable : ∀ created ∈ opened, ∀ field ∈ created.request.headerList, field.Portable {}
  small : requestsSize opened < 2 ^ 63

instance (opened : List Stream) : Decidable (Permitted opened) :=
  decidable_of_iff (opened.length ≤ 2 ^ 30 ∧
      (∀ created ∈ opened, ∀ field ∈ created.request.headerList, field.Portable {}) ∧
      requestsSize opened < 2 ^ 63)
    ⟨fun all => ⟨all.1, all.2.1, all.2.2⟩, fun permitted =>
      ⟨permitted.few, permitted.portable, permitted.small⟩⟩

private theorem requestsSize_append (first second : List Stream) :
    requestsSize (first ++ second) = requestsSize first + requestsSize second := by
  rw [requestsSize, List.map_append, List.sum_append, requestsSize, requestsSize]

private theorem Permitted.before {first second : List Stream}
    (permitted : Permitted (first ++ second)) :
    Permitted first where
  few := by
    have few := permitted.few
    rw [List.length_append] at few
    omega
  portable created member := permitted.portable created (List.mem_append_left _ member)
  small := by
    have small := permitted.small
    rw [requestsSize_append] at small
    omega

/-- What holds between the client and what was read from all frames of its streams: for every
request, what the stream has no longer to send was read. -/
structure Arrived (opened : List Stream) (heap : Nat → Stream) (encoder : Encoder)
    (read : Machine.History Decoder (Nat × Content)) : Prop where
  linked : Linked encoder.table read.state.table
  config : encoder.config = {}
  numbers : ∀ part ∈ read.emitted, ∃ ptr < opened.length, part.1 = 2 * ptr + 1
  fields : ∀ ptr created, opened[ptr]? = some created →
    Content.arrived Content.headerFields (2 * ptr + 1) read.emitted ++
      (heap ptr).request.headerList = created.request.headerList
  body : ∀ ptr created, opened[ptr]? = some created →
    Content.arrived Content.bodyBytes (2 * ptr + 1) read.emitted ++ (heap ptr).unsent =
      created.unsent
  size : read.state.table.tableSize + StreamRegistry.total fieldsLeft heap opened.length ≤
    requestsSize opened

private theorem unsent_of_sending {first second : Stream} (same : first.sending = second.sending) :
    first.unsent = second.unsent := by
  have request := congrArg Stream.Sending.request same
  have offset := congrArg Stream.Sending.sendBodyOffset same
  simp only [Stream.sending] at request offset
  rw [Stream.unsent, request, offset, Stream.unsent]

section Arrived

variable {opened : List Stream} {heap other : Nat → Stream} {encoder : Encoder}
  {read : Machine.History Decoder (Nat × Content)}

/-- Whatever happens to the streams besides sending. -/
theorem Arrived.congr (arrived : Arrived opened heap encoder read)
    (same : ∀ ptr, (other ptr).sending = (heap ptr).sending) :
    Arrived opened other encoder read := by
  have headers (ptr : Nat) : (other ptr).request.headerList = (heap ptr).request.headerList :=
    congrArg (fun part => part.request.headerList) (same ptr)
  refine ⟨arrived.linked, arrived.config, arrived.numbers, fun ptr created found => ?_,
    fun ptr created found => ?_, ?_⟩
  · rw [headers ptr]
    exact arrived.fields ptr created found
  · rw [unsent_of_sending (same ptr)]
    exact arrived.body ptr created found
  · rw [StreamRegistry.total_congr fun ptr _ => congrArg fieldsSize (headers ptr)]
    exact arrived.size

/-- A stream is opened. -/
theorem Arrived.opens (arrived : Arrived opened heap encoder read) (created : Stream) :
    Arrived (opened ++ [created]) (Function.update heap opened.length created) encoder read := by
  -- no frame has the number of the new stream yet
  have none {Item : Type} (select : Content → List Item) :
      Content.arrived select (2 * opened.length + 1) read.emitted = [] := by
    rw [Content.arrived, List.filter_eq_nil_iff.mpr, List.flatMap_nil]
    intro part member own
    obtain ⟨ptr, inside, number⟩ := arrived.numbers part member
    have same := of_decide_eq_true own
    omega
  have places {ptr : Nat} {stream : Stream} (found : (opened ++ [created])[ptr]? = some stream) :
      ptr < opened.length ∧ opened[ptr]? = some stream ∨
        ptr = opened.length ∧ stream = created := by
    rcases Nat.lt_or_ge ptr opened.length with inside | outside
    · rw [List.getElem?_append_left inside] at found
      exact .inl ⟨inside, found⟩
    · rw [List.getElem?_append_right outside] at found
      obtain ⟨last, rfl⟩ := List.getElem?_eq_some_iff.mp found
      rw [List.length_singleton] at last
      exact .inr ⟨by omega, List.getElem_singleton _⟩
  refine ⟨arrived.linked, arrived.config, fun part member => ?_, fun ptr stream found => ?_,
    fun ptr stream found => ?_, ?_⟩
  · obtain ⟨ptr, inside, number⟩ := arrived.numbers part member
    rw [List.length_append]
    exact ⟨ptr, Nat.lt_add_right _ inside, number⟩
  · rcases places found with ⟨inside, earlier⟩ | ⟨rfl, rfl⟩
    · rw [Function.update_of_ne (Nat.ne_of_lt inside)]
      exact arrived.fields ptr stream earlier
    · rw [Function.update_self, none, List.nil_append]
  · rcases places found with ⟨inside, earlier⟩ | ⟨rfl, rfl⟩
    · rw [Function.update_of_ne (Nat.ne_of_lt inside)]
      exact arrived.body ptr stream earlier
    · rw [Function.update_self, none, List.nil_append]
  · have size := arrived.size
    rw [List.length_append, List.length_singleton, StreamRegistry.total, Function.update_self,
      StreamRegistry.total_congr fun ptr inside => by
        rw [Function.update_of_ne (Nat.ne_of_lt inside)],
      requestsSize_append]
    simp only [requestsSize, List.map_cons, List.map_nil, List.sum_cons, List.sum_nil] at size ⊢
    omega

/-- **A turn.** The frames of a turn are read back. -/
theorem Arrived.turn (arrived : Arrived opened heap encoder read) (permitted : Permitted opened)
    {ptr limit : Nat} {turn : Turn} (inside : ptr < opened.length)
    (named : (heap ptr).httpId = idAt ptr)
    (sent : (heap ptr).getTxData lowerBound encoder limit = .ok turn) {stream : Stream}
    (same : stream.sending = turn.stream.sending) :
    ∃ after, (readBack around).run read (turn.out.map OutFrame.bytes) = .ok after ∧
      Arrived opened (Function.update heap ptr stream) turn.encoder after := by
  have found := List.getElem?_eq_getElem inside
  have size := arrived.size
  have small := permitted.small
  have own : fieldsLeft (heap ptr) ≤ StreamRegistry.total fieldsLeft heap opened.length :=
    StreamRegistry.le_total inside
  have synced : Sides.Synced ⟨heap ptr, encoder, read.state⟩ := by
    refine ⟨arrived.linked, fun field member => ?_, ?_⟩
    · apply arrived.config ▸ permitted.portable _ (List.getElem_mem inside)
      rw [← arrived.fields ptr _ found]
      exact List.mem_append_right _ member
    · rw [fieldsLeft] at own
      simp only [Sides.size]
      omega
  obtain ⟨decoder, parts, carries⟩ := Stream.carries_getTxData around synced sent
  have number : ∀ part ∈ parts, part.1 = 2 * ptr + 1 := by
    intro part member
    obtain ⟨bytes, written, number⟩ := ReadBack.takes_numbers carries.reads part member
    obtain ⟨frame, emitted, rfl⟩ := List.mem_map.mp written
    have few := permitted.few
    rw [number, Wire.streamId_bytes (Nat.mod_lt (2 * ptr + 1) (by decide))
      ((Stream.getTxData_streamId sent frame emitted).trans named)]
    omega
  have headers : stream.request.headerList = turn.stream.request.headerList :=
    congrArg (fun part => part.request.headerList) same
  refine ⟨⟨decoder, read.emitted ++ parts⟩, carries.reads read.emitted, carries.linked,
    carries.config.trans arrived.config, ?_, fun target created opens => ?_,
    fun target created opens => ?_, ?_⟩
  · exact List.forall_mem_append.mpr ⟨arrived.numbers, fun part member =>
      ⟨ptr, inside, number part member⟩⟩
  · rw [Content.arrived_append, List.append_assoc]
    by_cases mine : target = ptr
    · subst mine
      rw [Content.arrived_own number, Function.update_self, headers, carries.fields]
      exact arrived.fields target created opens
    · rw [Content.arrived_other number (by omega), List.nil_append, Function.update_of_ne mine]
      exact arrived.fields target created opens
  · rw [Content.arrived_append, List.append_assoc]
    by_cases mine : target = ptr
    · subst mine
      rw [Content.arrived_own number, Function.update_self, unsent_of_sending same, carries.body]
      exact arrived.body target created opens
    · rw [Content.arrived_other number (by omega), List.nil_append, Function.update_of_ne mine]
      exact arrived.body target created opens
  · have left := @StreamRegistry.total_update fieldsLeft heap ptr _ inside stream
    rw [fieldsLeft, fieldsLeft] at left
    have grown := carries.size
    simp only [Sides.size, ← headers] at grown ⊢
    omega

/-- A round of turns. -/
theorem Arrived.round {registry : StreamRegistry} {limit : Nat}
    {final : Machine.History Round (Nat × OutFrame)}
    (arrived : Arrived opened registry.heap encoder read) (permitted : Permitted opened)
    (scheduled : registry.Scheduled) (size : opened.length = registry.size)
    (named : ∀ ptr < registry.size, (registry.heap ptr).httpId = idAt ptr)
    (ran : (StreamRegistry.scheduler lowerBound limit).run ⟨⟨registry.heap, encoder, 0, []⟩, []⟩
      registry.queue = .ok final) :
    ∃ after, (readBack around).run read ((final.emitted.map Prod.snd).map OutFrame.bytes) =
        .ok after ∧ Arrived opened final.state.heap final.state.encoder after := by
  refine @run_streams lowerBound registry encoder limit (fun heap encoder emitted => ∃ after,
      (readBack around).run read ((emitted.map Prod.snd).map OutFrame.bytes) = .ok after ∧
        Arrived opened heap encoder after)
    final scheduled ?_ ⟨read, rfl, arrived⟩ ran
  rintro heap encoder emitted ptr limit turn stream inside id ⟨before, reads, holds⟩ sent marked
  have same : stream.sending = turn.stream.sending := by
    rcases marked with rfl | ⟨_, rfl⟩
    · rfl
    · exact Stream.marked_sending _
  obtain ⟨after, more, next⟩ := holds.turn permitted (size ▸ inside)
    (id.trans (named ptr inside)) sent same
  refine ⟨after, ?_, next⟩
  rw [List.map_append, List.map_append, Machine.run_append reads, List.map_map, List.map_map]
  exact more

end Arrived

/-! ## Runs -/

/-- Nothing but sending changes what the streams have to send. -/
theorem Changed.sending {registry : StreamRegistry} (changed : Changed client event registry)
    (opens : ∀ request, event ≠ .send request) (ptr : Nat) :
    (registry.heap ptr).sending = (client.registry.heap ptr).sending := by
  have received {target : Nat} {stream : Stream}
      (same : stream.sending = (client.registry.heap target).sending) :
      (Function.update client.registry.heap target stream ptr).sending =
        (client.registry.heap ptr).sending :=
    StreamRegistry.update_same Stream.sending same ptr
  cases changed with
  | same => rfl
  | @added request connected => exact absurd rfl (opens request)
  | timeout => exact received (Stream.receive_sending _ .timeout)
  | @reset ec =>
      simp only [StreamRegistry.reset]
      split
      · exact Stream.receive_sending _ (.cleanup ec)
      · rfl
  | erased => exact received (Stream.receive_sending _ _)
  | received => exact received (Stream.receive_sending _ _)
  | enqueued => exact received ((Stream.marked_sending _).trans (Stream.receive_sending _ _))

/-- What an event other than sending does to the requests: nothing, or it adds one. -/
theorem react_requests (sends : event ≠ .getTxData) (reacted : client.react event = .ok next)
    (journal : Journal) :
    next.encoder = client.encoder ∧
      ((client.noted event journal).opened = journal.opened ∧
          (∀ ptr, (next.registry.heap ptr).sending = (client.registry.heap ptr).sending) ∨
        ∃ request, (client.noted event journal).opened =
            journal.opened ++ [client.newStream request] ∧
          next.registry.heap = Function.update client.registry.heap client.registry.size
            (client.newStream request)) := by
  by_cases opens : ∃ request, event = .send request
  · obtain ⟨request, rfl⟩ := opens
    cases reacted
    cases connected : client.isConnected with
    | false =>
        simp only [initiateSend, noted, called, connected, Bool.not_false, Bool.false_eq_true,
          ↓reduceIte]
        exact ⟨trivial, .inl ⟨trivial, fun _ => trivial⟩⟩
    | true =>
        simp only [initiateSend, noted, called, connected, Bool.not_true, Bool.false_eq_true,
          ↓reduceIte]
        exact ⟨trivial, .inr ⟨request, rfl, rfl⟩⟩
  · have closed := fun request same => opens ⟨request, same⟩
    refine ⟨react_part (·.encoder) (fun _ _ => rfl) reacted, .inl ⟨?_, ?_⟩⟩
    · cases event with
      | send request => exact absurd rfl (closed request)
      | _ => rfl
    · exact (react_changed sends reacted).sending closed

@[simp] private theorem streamFrames_append (first second : List Tx) :
    streamFrames (first ++ second) = streamFrames first ++ streamFrames second :=
  List.filterMap_append

/-- The frames of streams in what a call of `get_tx_data` sends. -/
theorem streamFrames_sent (commands : List Bytes) (frames : List (Nat × OutFrame)) :
    streamFrames (commands.map Tx.command ++ streamTx frames) = frames.map Prod.snd := by
  have silent : streamFrames (commands.map Tx.command) = [] := by
    rw [streamFrames, List.filterMap_map]
    exact List.filterMap_eq_nil_iff.mpr fun _ _ => rfl
  rw [streamFrames_append, silent, List.nil_append, streamFrames, streamTx, List.filterMap_map]
  exact congrFun (@List.filterMap_eq_map' _ _ Prod.snd) frames

/-- The frames of all streams are read back, as long as the requests are permitted. -/
def Delivered (around : Int → UInt8) (history : Machine.History (Client × Journal) Tx) : Prop :=
  Permitted history.state.2.opened → ∃ read,
    (readBack around).run ⟨.create, []⟩ ((streamFrames history.emitted).map OutFrame.bytes) =
      .ok read ∧
    Arrived history.state.2.opened history.state.1.registry.heap history.state.1.encoder read

/-- **A step.** What is sent is read back. -/
theorem Delivered.advance {history after : Machine.History (Client × Journal) Tx}
    (delivered : Delivered around history) (multiplexed : Multiplexed lowerBound history)
    (enumerated : Enumerated history)
    (taken : (journaled lowerBound).advance history event = .ok after) :
    Delivered around after := by
  obtain ⟨state, out, stepped, rfl⟩ := Machine.observed_advance taken
  intro permitted
  rcases step_react stepped with ⟨rfl, sent⟩ | ⟨sends, rfl, reacted⟩
  · obtain ⟨read, reads, arrived⟩ := delivered permitted
    obtain ⟨commands, left, window, _, ⟨_, rfl, rfl⟩ | ⟨_, final, ran, rfl, rfl⟩⟩ :=
      getTxData_cases sent
    · have none := streamFrames_sent commands []
      rw [streamTx, List.map_nil, List.append_nil] at none
      rw [streamFrames_append, none, List.map_nil, List.append_nil]
      exact ⟨read, reads, arrived⟩
    · rw [streamFrames_append, streamFrames_sent, List.map_append, Machine.run_append reads]
      exact arrived.round permitted multiplexed.scheduled multiplexed.opened
        (fun ptr inside => (enumerated.identified multiplexed inside).1) ran
  · rw [List.append_nil]
    obtain ⟨encoder, ⟨same, sending⟩ | ⟨request, grown, heap⟩⟩ :=
      react_requests sends reacted history.state.2
    · simp only [same] at permitted ⊢
      obtain ⟨read, reads, arrived⟩ := delivered permitted
      rw [encoder]
      exact ⟨read, reads, arrived.congr sending⟩
    · simp only [grown] at permitted ⊢
      obtain ⟨read, reads, arrived⟩ := delivered permitted.before
      rw [encoder, heap, ← multiplexed.opened]
      exact ⟨read, reads, arrived.opens _⟩

/-- Frames of the connection bring nothing to requests. -/
theorem run_commands {sent : List Tx} {history : Machine.History Decoder (Nat × Content)}
    (commands : ∀ command, Tx.command command ∈ sent → Wire.IsCommand command) :
    (readBack around).run history (sent.map Tx.bytes) =
      (readBack around).run history ((streamFrames sent).map OutFrame.bytes) := by
  induction sent generalizing history with
  | nil => rfl
  | cons tx sent ih =>
      have later := fun command member => commands command (List.mem_cons_of_mem _ member)
      cases tx with
      | command bytes =>
          have ignored : (readBack around).advance history bytes = .ok history := by
            simp only [Machine.advance, Outcome.ok_bind, List.append_nil,
              ReadBack.step_control (commands bytes List.mem_cons_self).control]
          rw [List.map_cons, Machine.run, Tx.bytes, ignored, Outcome.ok_bind, ih later]
          rfl
      | frame ptr frame =>
          have frames : streamFrames (.frame ptr frame :: sent) = frame :: streamFrames sent := rfl
          rw [frames, List.map_cons, List.map_cons, Machine.run, Machine.run, Tx.bytes]
          simp only [ih later]

/-- **Delivery.** Whatever happens on a connection, what the client writes can be cut into
frames, and one new `rfc7541::decoder` reads all their header blocks without a failure. The
header fields and the bytes that were read under the number of a request, followed by those
that the stream has still to send, are the header fields and the body of the request. -/
theorem requests_delivered (lowerBound : LowerBound) (around : Int → UInt8) (events : List Event)
    (last : Machine.History (Client × Journal) Tx) (whole : ∀ event ∈ events, event.Whole)
    (ran : (journaled lowerBound).run create.writeInitialFrames.unwritten events = .ok last)
    (permitted : Permitted last.state.2.opened)
    (short : ∀ frame ∈ streamFrames last.emitted, frame.payload.length < 2 ^ 24) :
    last.emitted = [] ∨ ∃ sent decoder parts, last.emitted = .command preface :: sent ∧
      (readBack around).run ⟨.create, []⟩
          ((Wire.peerFrames.cut [] (sent.flatMap Tx.bytes)).items.map Dispatched.bytes) =
        .ok ⟨decoder, parts⟩ ∧
      ∀ ptr created, last.state.2.opened[ptr]? = some created →
        Content.arrived Content.headerFields (2 * ptr + 1) parts ++
            (last.state.1.registry.heap ptr).request.headerList = created.request.headerList ∧
          Content.arrived Content.bodyBytes (2 * ptr + 1) parts ++
            (last.state.1.registry.heap ptr).unsent = created.unsent := by
  have start : Delivered around create.writeInitialFrames.unwritten := fun _ =>
    ⟨⟨.create, []⟩, rfl, Linked.create, rfl, List.forall_mem_nil _,
      fun _ _ none => (by cases none), fun _ _ none => (by cases none), Nat.le_refl _⟩
  obtain ⟨_, _, delivered⟩ := @Machine.run_kept _ _ _ _ _ (fun history =>
      Multiplexed lowerBound history ∧ Enumerated history ∧ Delivered around history)
    (fun _ _ _ kept taken => ⟨kept.1.advance taken,
      kept.2.1.advance kept.1.opened kept.1.scheduled taken,
      kept.2.2.advance kept.1 kept.2.1 taken⟩)
    _ _ _ ⟨.unwritten rfl, .unwritten rfl rfl, start⟩ ran
  obtain ⟨read, reads, arrived⟩ := delivered permitted
  rcases output_framed whole (Machine.run_of_observed ran) short with
    nothing | ⟨sent, started, commands, frames⟩
  · exact .inl nothing
  · have same : streamFrames last.emitted = streamFrames sent := by
      rw [started]
      rfl
    refine .inr ⟨sent, read.state, read.emitted, started, ?_, fun ptr created found =>
      ⟨arrived.fields ptr created found, arrived.body ptr created found⟩⟩
    rw [(Wire.cut_frames frames).1, List.map_map]
    have bytes : Dispatched.bytes ∘ (fun tx => Wire.dispatch tx.bytes) = Tx.bytes := by
      funext tx
      exact Wire.bytes_dispatch tx.bytes
    rw [bytes, run_commands commands, ← same]
    exact reads

/-- Two uploads with an answer to a PING frame in between. -/
theorem requests_delivered_conversation :
    ∃ last sent decoder parts,
      (journaled .linear).run create.writeInitialFrames.unwritten conversation = .ok last ∧
      last.state.2.opened.length = 2 ∧ last.emitted = .command preface :: sent ∧
      (readBack fun _ => 0).run ⟨.create, []⟩
          ((Wire.peerFrames.cut [] (sent.flatMap Tx.bytes)).items.map Dispatched.bytes) =
        .ok ⟨decoder, parts⟩ ∧
      ∀ ptr created, last.state.2.opened[ptr]? = some created →
        Content.arrived Content.headerFields (2 * ptr + 1) parts ++
            (last.state.1.registry.heap ptr).request.headerList = created.request.headerList ∧
          Content.arrived Content.bodyBytes (2 * ptr + 1) parts ++
            (last.state.1.registry.heap ptr).unsent = created.unsent := by
  have passes : ((journaled .linear).run create.writeInitialFrames.unwritten
      conversation).toOption.any (fun last => decide (last.state.2.opened.length = 2 ∧
        last.emitted ≠ [] ∧ Permitted last.state.2.opened ∧
        ∀ frame ∈ streamFrames last.emitted, frame.payload.length < 2 ^ 24)) = true := by
    decide +kernel
  obtain ⟨last, ran, checks⟩ := Outcome.exists_ok_of_any passes
  obtain ⟨two, some, permitted, short⟩ := of_decide_eq_true checks
  rcases requests_delivered .linear (fun _ => 0) conversation last (by decide +kernel) ran
    permitted short with nothing | ⟨sent, decoder, parts, delivered⟩
  · exact absurd nothing some
  · exact ⟨last, sent, decoder, parts, ran, two, delivered⟩

end Client

end H2pp.Http2

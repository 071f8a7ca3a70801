import H2pp.Hpack.Fragments
import H2pp.Http2.BaseClient

/-! # Receiving header blocks in fragments

A header block comes in a HEADERS frame and any number of CONTINUATION frames. The
client does not put the fragments together: each is given to the decoder when its
frame is read. A block that is cut inside a representation is refused for that
reason, and so the sender has to cut between representations.
-/

namespace H2pp.Http2

open Utils Hpack

namespace Stream

/-- The header fields that were put into the responses of a stream, those that have
been given to the handler first. -/
def inserted (stream : Stream) : List HeaderField :=
  (stream.delivered.flatMap fun call => call.2.headerList) ++ stream.response.headerList

private theorem finished_inserted (stream : Stream) (ec : ErrorCode) :
    (stream.finished ec).inserted = stream.inserted := by
  unfold finished
  split
  · simp only [inserted, List.flatMap_append, List.flatMap_cons, List.flatMap_nil,
      Response.movedFrom, List.append_nil]
  · rfl

private theorem finished_isFinished (stream : Stream) (ec : ErrorCode) :
    (stream.finished ec).isFinished = stream.isFinished := by
  unfold finished
  split <;> rfl

end Stream

/-- A frame with a fragment of a header block, and the size of the buffer it is in. -/
inductive HeaderFrame
  | headers (frame : FrameAnalyzer) (size : Nat)
  | continuation (frame : FrameAnalyzer) (size : Nat)

namespace HeaderFrame

/-- The stream that a fragment is for. -/
def streamId : HeaderFrame → Nat
  | headers frame _ => frame.streamId
  | continuation frame _ => frame.streamId

/-- The fragment. -/
def block : HeaderFrame → Span
  | headers frame _ => frame.span frame.headerBlock
  | continuation frame _ => frame.span frame.continuationBlock

/-- What the stream is given after the fragment was decoded. -/
def received (fields : List HeaderField) : HeaderFrame → Stream.Received
  | headers frame size => .headers fields frame.flags size
  | continuation frame size => .continuation fields frame.flags size

/-- The fields of a fragment are put into the response, and the stream stays open. -/
theorem receive_spec (fragment : HeaderFrame) (stream : Stream) (fields : List HeaderField) :
    (stream.receive (fragment.received fields)).inserted = stream.inserted ++ fields ∧
      (stream.isFinished = false →
        (stream.receive (fragment.received fields)).isFinished = false) := by
  cases fragment with
  | headers frame size =>
      simp only [received, Stream.receive, Stream.onReceiveHeaders, Stream.endResponse]
      split
      · rw [Stream.finished_inserted, Stream.finished_isFinished]
        exact ⟨(List.append_assoc ..).symm, fun _ => rfl⟩
      · exact ⟨(List.append_assoc ..).symm, id⟩
  | continuation frame size =>
      simp only [received, Stream.receive, Stream.onReceiveContinuation]
      split
      · rw [Stream.finished_inserted, Stream.finished_isFinished]
        exact ⟨(List.append_assoc ..).symm, id⟩
      · exact ⟨(List.append_assoc ..).symm, id⟩

end HeaderFrame

namespace Client

/-- The handler of a frame with a fragment. -/
def receiveFragment (client : Client) : HeaderFrame → Client × Option Failure
  | .headers frame size => client.onReceiveHeaders frame size
  | .continuation frame size => client.onReceiveContinuation frame size

/-- The frames of a block in order, up to the first whose handler throws. -/
def receiveFragments (client : Client) : List HeaderFrame → Client × Option Failure
  | [] => (client, none)
  | fragment :: fragments =>
      match client.receiveFragment fragment with
      | (client, some failure) => (client, some failure)
      | (client, none) => client.receiveFragments fragments

/-- A stream of the map that is not closed. -/
structure Opened (client : Client) (id ptr : Nat) : Prop where
  found : client.registry.getStream id = some ptr
  alive : (client.registry.heap ptr).isFinished = false

/-- What receiving a block is to leave: no error, the decoder as it is after the block,
and the fields in the response of the stream. -/
structure Transparent (client : Client) (ptr : Nat) (outcome : Client × Option Failure)
    (decoder : Decoder) (fields : List HeaderField) : Prop where
  accepted : outcome.2 = none
  decoder : outcome.1.decoder = decoder
  inserted : (outcome.1.registry.heap ptr).inserted =
    (client.registry.heap ptr).inserted ++ fields

variable {client next : Client} {id ptr : Nat} {after : DynamicTable} {fields : List HeaderField}

private theorem receiveFragment_eq (client : Client) (fragment : HeaderFrame) :
    client.receiveFragment fragment = client.onReceiveBlock fragment.block fragment.streamId
      fun fields => fragment.received fields := by
  cases fragment <;> rfl

private theorem checkTxData_spec (stream : Stream) :
    stream.checkTxData.2.inserted = stream.inserted ∧
    stream.checkTxData.2.isFinished = stream.isFinished := by
  unfold Stream.checkTxData
  split <;> exact ⟨rfl, rfl⟩

/-- An open stream is given the fields of a fragment, and stays open. -/
theorem invokeForStream_fragment {fragment : HeaderFrame} (opened : client.Opened id ptr) :
    ∃ next, client.invokeForStream id (fragment.received fields) = (next, none) ∧
      next.decoder = client.decoder ∧ next.Opened id ptr ∧
      (next.registry.heap ptr).inserted = (client.registry.heap ptr).inserted ++ fields := by
  obtain ⟨inserted, alive⟩ := fragment.receive_spec (client.registry.heap ptr) fields
  have stays := alive opened.alive
  obtain ⟨same, state⟩ := checkTxData_spec
    ((client.registry.heap ptr).receive (fragment.received fields))
  unfold invokeForStream StreamRegistry.invokeForStream
  rw [opened.found]
  simp only [stays, Bool.false_eq_true, ↓reduceIte]
  refine ⟨_, rfl, rfl, ⟨?_, ?_⟩, ?_⟩
  · split <;> exact opened.found
  · split <;> simp only [StreamRegistry.enqueue, Function.update_self, state, stays]
  · split <;> simp only [StreamRegistry.enqueue, Function.update_self, same, inserted]

/-- A fragment that can be decoded is received. -/
theorem receiveFragment_of_decodes {fragment : HeaderFrame} (opened : client.Opened id ptr)
    (stream : fragment.streamId = id)
    (decodes : Decodes client.decoder.table fragment.block after fields) :
    ∃ next, client.receiveFragment fragment = (next, none) ∧ next.decoder = ⟨after⟩ ∧
      next.Opened id ptr ∧
      (next.registry.heap ptr).inserted = (client.registry.heap ptr).inserted ++ fields := by
  have decoded : client.decoder.decode fragment.block = (⟨after⟩, .ok fields) :=
    decode_eq.mpr decodes
  have kept : { client with decoder := ⟨after⟩ }.Opened id ptr := ⟨opened.found, opened.alive⟩
  rw [receiveFragment_eq, onReceiveBlock, decodeBlock, decoded, stream]
  exact invokeForStream_fragment kept

/-- A fragment that is received can be decoded. -/
theorem decodes_of_receiveFragment {fragment : HeaderFrame}
    (accepted : client.receiveFragment fragment = (next, none)) :
    ∃ after fields, Decodes client.decoder.table fragment.block after fields := by
  rw [receiveFragment_eq, onReceiveBlock, decodeBlock] at accepted
  rcases decoded : client.decoder.decode fragment.block with ⟨decoder, failure | fields⟩
  · rw [decoded] at accepted
    cases failure <;> cases accepted
  · exact ⟨decoder.table, fields, decode_eq.mp decoded⟩

/-- Fragments that can be decoded one after the other are received. -/
theorem receiveFragments_of_decodes {fragments : List HeaderFrame} (opened : client.Opened id ptr)
    (stream : ∀ fragment ∈ fragments, fragment.streamId = id)
    (decodes : DecodesAll client.decoder.table (fragments.map HeaderFrame.block) after fields) :
    Transparent client ptr (client.receiveFragments fragments) ⟨after⟩ fields := by
  induction fragments generalizing client fields with
  | nil =>
      cases decodes
      exact ⟨rfl, rfl, (List.append_nil _).symm⟩
  | cons fragment fragments ih =>
      obtain ⟨same, others⟩ := List.forall_mem_cons.mp stream
      cases decodes with
      | @cons _ _ _ _ _ front back first rest =>
          obtain ⟨next, received, decoder, kept, inserted⟩ :=
            receiveFragment_of_decodes opened same first
          rw [receiveFragments, received]
          have later := ih kept others (by rw [decoder]; exact rest)
          refine ⟨later.accepted, later.decoder, ?_⟩
          rw [later.inserted, inserted, List.append_assoc]

/-- Fragments that are received can be decoded one after the other. -/
theorem decodes_of_receiveFragments {fragments : List HeaderFrame} (opened : client.Opened id ptr)
    (stream : ∀ fragment ∈ fragments, fragment.streamId = id)
    (accepted : (client.receiveFragments fragments).2 = none) :
    ∃ after fields,
      DecodesAll client.decoder.table (fragments.map HeaderFrame.block) after fields := by
  induction fragments generalizing client with
  | nil => exact ⟨_, _, .nil⟩
  | cons fragment fragments ih =>
      obtain ⟨same, others⟩ := List.forall_mem_cons.mp stream
      rw [receiveFragments] at accepted
      rcases received : client.receiveFragment fragment with ⟨next, _ | failure⟩
      · obtain ⟨middle, front, first⟩ := decodes_of_receiveFragment received
        obtain ⟨step, taken, decoder, kept, -⟩ := receiveFragment_of_decodes opened same first
        cases received.symm.trans taken
        rw [received] at accepted
        obtain ⟨after, back, rest⟩ := ih kept others accepted
        rw [decoder] at rest
        exact ⟨after, front ++ back, .cons first rest⟩
      · rw [received] at accepted
        cases accepted

/-- Receiving fragments is decoding them one after the other. -/
theorem receiveFragments_iff {fragments : List HeaderFrame} (opened : client.Opened id ptr)
    (stream : ∀ fragment ∈ fragments, fragment.streamId = id) :
    Transparent client ptr (client.receiveFragments fragments) ⟨after⟩ fields ↔
      DecodesAll client.decoder.table (fragments.map HeaderFrame.block) after fields := by
  constructor
  · intro transparent
    obtain ⟨last, all, decodes⟩ := decodes_of_receiveFragments opened stream transparent.accepted
    have received := receiveFragments_of_decodes opened stream decodes
    cases transparent.decoder.symm.trans received.decoder
    cases List.append_cancel_left (transparent.inserted.symm.trans received.inserted)
    exact decodes
  · exact receiveFragments_of_decodes opened stream

/-- The frames of a block that was cut: a HEADERS frame, then CONTINUATION frames. -/
def blockFrames (headers : FrameAnalyzer × Nat) (continuations : List (FrameAnalyzer × Nat)) :
    List HeaderFrame :=
  .headers headers.1 headers.2 ::
    continuations.map fun continuation => .continuation continuation.1 continuation.2

/-- **Fragmentation is transparent** for a block that the decoder accepts as a whole,
exactly when the fragments are sequences of whole representations, with strings that
read as they do in the block. -/
theorem fragmentation_transparent_iff {decoder : Decoder} (whole : Span)
    (headers : FrameAnalyzer × Nat) (continuations : List (FrameAnalyzer × Nat))
    (opened : client.Opened id ptr)
    (stream : ∀ fragment ∈ blockFrames headers continuations, fragment.streamId = id)
    (cut : whole.bytes =
      ((blockFrames headers continuations).map HeaderFrame.block).flatMap Span.bytes)
    (accepted : client.decoder.decode whole = (decoder, .ok fields)) :
    Transparent client ptr (client.receiveFragments (blockFrames headers continuations))
        decoder fields ↔
      AllFaithful ((blockFrames headers continuations).map HeaderFrame.block) whole :=
  (receiveFragments_iff opened stream).trans (decodesAll_iff cut (decode_eq.mp accepted))

/-- A client with one open stream. -/
def listening : Client :=
  { create with
    registry := create.registry.addStream 0x1000000 (.create 0x1000000 100 100 ⟨[], [], 0⟩) }

/-- A block with `a: b` as a literal and an indexed field behind it. -/
def sampleBlock : Span := .ofBytes (fun _ => 0) [0x40, 1, 0x61, 1, 0x62, 0x82]

/-- The literal in a HEADERS frame. -/
def literalFrame : FrameAnalyzer where
  buffer := .ofBytes (fun _ => 0) [0, 0, 5, 1, 0, 0, 0, 0, 1, 0x40, 1, 0x61, 1, 0x62]
  long := by decide
  adjusted := by decide

/-- The indexed field in a CONTINUATION frame. -/
def indexFrame : FrameAnalyzer where
  buffer := .ofBytes (fun _ => 0) [0, 0, 1, 9, 4, 0, 0, 0, 1, 0x82]
  long := by decide
  adjusted := by decide

private theorem listening_opened : listening.Opened 0x1000000 0 := ⟨by decide, by decide⟩

private theorem sampleBlock_accepted : ∃ decoder fields,
    listening.decoder.decode sampleBlock = (decoder, .ok fields) ∧ fields.length = 2 := by
  have passes : (listening.decoder.decode sampleBlock).2.toOption.any
      (fun fields => decide (fields.length = 2)) = true := by
    decide +kernel
  obtain ⟨fields, decoded, checks⟩ := Outcome.exists_ok_of_any passes
  exact ⟨_, fields, Prod.ext rfl decoded, of_decide_eq_true checks⟩

/-- A block that is cut behind its literal is received as a whole. -/
theorem fragmentation_behind_literal : ∃ decoder fields,
    listening.decoder.decode sampleBlock = (decoder, .ok fields) ∧ fields.length = 2 ∧
      Transparent listening 0
        (listening.receiveFragments (blockFrames (literalFrame, 14) [(indexFrame, 10)]))
        decoder fields := by
  obtain ⟨decoder, fields, accepted, count⟩ := sampleBlock_accepted
  refine ⟨decoder, fields, accepted, count, (fragmentation_transparent_iff sampleBlock
    (literalFrame, 14) [(indexFrame, 10)] listening_opened (by decide) (by decide +kernel)
    accepted).mpr ⟨?_, ?_, trivial⟩⟩
  · exact @Faithful.command _ _ ⟨[1, 3], 5⟩ (by decide +kernel) (by decide +kernel) (.done rfl)
  · exact @Faithful.command _ _ ⟨[], 1⟩ (by decide +kernel) nofun (.done rfl)

/-- The start of the literal in a HEADERS frame, up to the length of its name. -/
def startFrame : FrameAnalyzer where
  buffer := .ofBytes (fun _ => 0) [0, 0, 2, 1, 0, 0, 0, 0, 1, 0x40, 1]
  long := by decide
  adjusted := by decide

/-- The rest of the block in a CONTINUATION frame. -/
def restFrame : FrameAnalyzer where
  buffer := .ofBytes (fun _ => 0) [0, 0, 4, 9, 4, 0, 0, 0, 1, 0x61, 1, 0x62, 0x82]
  long := by decide
  adjusted := by decide

/-- The same block, cut inside its literal, is a COMPRESSION_ERROR. -/
theorem fragmentation_inside_literal :
    listening.Opened 0x1000000 0 ∧
      (∀ fragment ∈ blockFrames (startFrame, 11) [(restFrame, 13)],
        fragment.streamId = 0x1000000) ∧
      sampleBlock.bytes = ((blockFrames (startFrame, 11) [(restFrame, 13)]).map
        HeaderFrame.block).flatMap Span.bytes ∧
      ∃ decoder fields, listening.decoder.decode sampleBlock = (decoder, .ok fields) ∧
        (listening.receiveFragments (blockFrames (startFrame, 11) [(restFrame, 13)])).2 =
          some (.systemError .compressionError "Not enough input data for string") ∧
        ¬ Transparent listening 0
          (listening.receiveFragments (blockFrames (startFrame, 11) [(restFrame, 13)]))
          decoder fields := by
  obtain ⟨decoder, fields, accepted, -⟩ := sampleBlock_accepted
  have refused : (listening.receiveFragments
      (blockFrames (startFrame, 11) [(restFrame, 13)])).2 =
        some (.systemError .compressionError "Not enough input data for string") := by
    decide +kernel
  refine ⟨listening_opened, by decide, by decide +kernel, decoder, fields, accepted, refused, ?_⟩
  intro transparent
  cases refused.symm.trans transparent.accepted

-- A Huffman string whose last bits are no padding is completed with what is behind it:
-- the symbol found there is another one when the string is the last of a fragment.
example :
    StringLiteral.decode (.ofBytes (fun _ => 0) [0x81, 0x18]) = .ok ⟨2, ascii "a0"⟩ ∧
      StringLiteral.decode (.ofBytes (fun _ => 0) [0x81, 0x18, 0x82]) = .ok ⟨2, ascii "a2"⟩ := by
  decide +kernel

end Client

end H2pp.Http2

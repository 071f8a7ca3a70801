import H2pp.Http2.Delivery
import H2pp.Http2.FrameRoundTrip
import H2pp.Http2.Handlers
import H2pp.Http2.Responses

/-! # Responses at the client

The header blocks of all responses are written with one of the library's own
`rfc7541::encoder`s, and the client reads them with its one decoder, in the order in which
they come and also for streams that it does not have any more. Whatever happens in between,
the handler of a request is called with the header fields, the status and the body that were
written for it.
-/

namespace H2pp.Http2

open Utils Hpack

/-! ## What the user reads -/

namespace Response

/-- The value of the first `:status` field. -/
def firstStatus (fields : List HeaderField) : Bytes :=
  match fields.find? fun field => field.name = ascii ":status" with
  | some field => field.value
  | none => []

/-- What holds of a response that `insert_headers` and `insert_body` have put together. -/
structure Sound (response : Response) : Prop where
  status : response.statusView = firstStatus response.headerList
  size : response.size = (response.bodyBlocks.map Span.size).sum

private theorem Sound.create : create.Sound := ⟨rfl, rfl⟩

/-- A status that was found stays the first one, and one that was not found is looked for
again. -/
theorem Sound.insertHeaders {response : Response} (sound : response.Sound)
    (header : List HeaderField) : (response.insertHeaders header).Sound := by
  refine ⟨?_, sound.size⟩
  simp only [Response.insertHeaders]
  split
  · rfl
  · rename_i found
    rw [sound.status] at found ⊢
    unfold firstStatus at found ⊢
    rw [List.find?_append]
    split at found
    · rename_i field first
      rw [first]
      rfl
    · exact absurd rfl found

private theorem Sound.insertBody {response : Response} (sound : response.Sound)
    (frame : FrameAnalyzer) :
    (response.insertBody frame).Sound := by
  refine ⟨sound.status, ?_⟩
  simp only [Response.insertBody, List.map_append, List.sum_append, List.map_cons, List.map_nil,
    List.sum_singleton, sound.size]

/-- `body_as<std::string>()`. -/
def bodyAs (response : Response) : Bytes := response.copyBody response.size

/-- `body_range()`. -/
def bodyRange (response : Response) : Bytes := response.bodyBlocks.flatMap Span.bytes

private theorem Sound.bodyAs {response : Response} (sound : response.Sound) :
    response.bodyAs = response.bodyRange :=
  copyBlocks_all _ _ _ (sound.size.trans (Nat.zero_add _).symm)

end Response

/-! ## What a response says -/

/-- What a stream is told: header fields, bytes of the body, and whether the wait for the
response is over. -/
structure Said where
  fields : List HeaderField
  body : Bytes
  ending : Option ErrorCode
  deriving DecidableEq

/-- What a handler is told: a code, and the headers, the status and the body of the
response. -/
structure Told where
  ec : ErrorCode
  headers : List HeaderField
  status : Bytes
  body : Bytes
  deriving DecidableEq

namespace Said

/-- What a handler is told after some fields and bytes, by what is said to its stream: the
first thing that ends the wait ends the response. -/
def told (fields : List HeaderField) (body : Bytes) : List Said → Option Told
  | [] => none
  | said :: later =>
      match said.ending with
      | some ec => some ⟨ec, fields ++ said.fields, Response.firstStatus (fields ++ said.fields),
          body ++ said.body⟩
      | none => told (fields ++ said.fields) (body ++ said.body) later

end Said

namespace Stream

/-- What something received says. -/
def Received.said (received : Received) : Said where
  fields :=
    match received with
    | .headers header _ _ => header
    | .continuation header _ _ => header
    | _ => []
  body :=
    match received with
    | .data _ frame => if frame.payloadSize ≠ 0 then (frame.span frame.data).bytes else []
    | _ => []
  ending := received.ending

/-- What the user reads in the call of a handler. -/
def told (call : ErrorCode × Response) : Told :=
  ⟨call.1, call.2.headerList, call.2.statusView, call.2.bodyAs⟩

end Stream

/-- A part of a response: header fields, of which `encode` takes as many as fit into `limit`
bytes, or bytes of the body. -/
inductive Part
  | headers (fields : List HeaderField) (limit : Nat)
  | continuation (fields : List HeaderField) (limit : Nat)
  | data (payload : Bytes)

/-- A part of the response to the request with a number, and whether it is the last one. -/
structure Answer where
  number : Nat
  ends : Bool
  part : Part

/-- What was written: the frame, the encoder afterwards, and what the frame says. -/
structure Written where
  frame : OutFrame
  encoder : Encoder
  said : Said

namespace Answer

/-- The fields of the part. -/
def fields (answer : Answer) : List HeaderField :=
  match answer.part with
  | .headers fields _ => fields
  | .continuation fields _ => fields
  | .data _ => []

/-- The flags of a frame. -/
def flags (answer : Answer) (complete : Bool) : UInt8 :=
  (if answer.ends then Flags.endStream else 0) ||| (if complete then Flags.endHeaders else 0)

/-- A frame for the request, if its length fits into the header. -/
def send (answer : Answer) (type : FrameType) (complete : Bool) (payload : Bytes)
    (encoder : Encoder) (said : Said) : Except Failure Written :=
  if payload.length < 2 ^ 24 then
    .ok ⟨⟨payload.length, type, answer.flags complete, nativeToBig32 answer.number, payload⟩,
      encoder, said⟩
  else .error (.lengthError "too long for a frame")

/-- What is said to the stream. -/
def saying (answer : Answer) (fields : List HeaderField) (body : Bytes) : Said :=
  ⟨fields, body, if answer.ends then some .success else none⟩

/-- A frame with the header fields that a call of `rfc7541::encoder::encode` takes. -/
def writeBlock (lowerBound : LowerBound) (encoder : Encoder) (answer : Answer) (type : FrameType)
    (fields : List HeaderField) (limit : Nat) : Except Failure Written := do
  let (buffers, count, encoder) ← encoder.encode lowerBound fields limit
  answer.send type (count = fields.length) (buffers.flatMap Buffer.data) encoder
    (answer.saying (fields.take count) [])

/-- A part of a response, written with an `rfc7541::encoder`. -/
def write (lowerBound : LowerBound) (encoder : Encoder) (answer : Answer) :
    Except Failure Written :=
  match answer.part with
  | .headers fields limit => answer.writeBlock lowerBound encoder .headers fields limit
  | .continuation fields limit => answer.writeBlock lowerBound encoder .continuation fields limit
  | .data payload => answer.send .data false payload encoder (answer.saying [] payload)

end Answer

namespace Client

variable {lowerBound : LowerBound} {client next : Client} {event : Event}

/-! ## The decoder of the client -/

/-- Only header blocks change the decoder. -/
theorem step_decoder {out : List Tx}
    (stepped : (machine lowerBound).step client event = .ok (next, out)) :
    next.decoder = client.decoderAfter event :=
  step_part (·.decoder) (fun _ _ => rfl) (fun _ _ => rfl) stepped

/-- Not a header block. -/
def Event.Blockless : Event → Prop
  | .receiveFrame data =>
      data.mem 3 ≠ FrameType.headers.value ∧ data.mem 3 ≠ FrameType.continuation.value
  | _ => True

instance : ∀ event : Event, Decidable event.Blockless
  | .receiveFrame _ => inferInstanceAs (Decidable (_ ∧ _))
  | .connected | .command _ | .syncSettings _ | .settingsTimeout | .ping _ | .send _
  | .streamTimeout _ | .receiveDataFrame _ | .getTxData | .disconnect _ | .cleanup _ =>
      isTrue trivial

private theorem decoderAfter_blockless (blockless : event.Blockless) (client : Client) :
    client.decoderAfter event = client.decoder := by
  cases event with
  | receiveFrame data =>
      obtain ⟨headers, continuation⟩ := blockless
      rw [decoderAfter]
      cases analyzed : FrameAnalyzer.fromBuffer data with
      | error failure => rfl
      | ok frame =>
          simp only
          cases known : FrameType.ofByte frame.typeByte with
          | none => rfl
          | some type =>
              have byte := FrameType.value_of_ofByte known
              rw [FrameAnalyzer.typeByte_fromBuffer analyzed] at byte
              cases type with
              | headers => exact absurd byte headers
              | continuation => exact absurd byte continuation
              | _ => rfl
  | _ => rfl

/-! ## Frames of a response -/

end Client

/-- What the client is called with for a frame, with `around` in the memory around it. -/
def Written.event (written : Written) (around : Int → UInt8) : Client.Event :=
  if written.frame.type = .data then .receiveDataFrame (Span.ofBytes around written.frame.bytes)
  else .receiveFrame (Span.ofBytes around written.frame.bytes)

namespace Answer

variable {lowerBound : LowerBound} {encoder : Encoder} {answer : Answer} {written : Written}

private theorem flags_plain (answer : Answer) (complete : Bool) :
    answer.flags complete &&& Flags.padded = 0 ∧ answer.flags complete &&& Flags.priority = 0 ∧
      endsStream (answer.flags complete) = answer.ends := by
  unfold flags
  cases answer.ends <;> cases complete <;> decide

/-- A frame that was sent is read back. -/
theorem send_read {type : FrameType} {complete : Bool} {payload : Bytes} {said : Said}
    (sent : answer.send type complete payload encoder said = .ok written) (around : Int → UInt8) :
    written.encoder = encoder ∧ written.said = said ∧ written.frame.type = type ∧
      ∃ frame, FrameAnalyzer.fromBuffer (Span.ofBytes around written.frame.bytes) = .ok frame ∧
        frame.typeByte = type.value ∧ frame.streamId = nativeToBig32 answer.number ∧
        frame.flags = answer.flags complete ∧ frame.payloadSize = payload.length ∧
        (frame.span ⟨0, frame.payloadSize⟩).bytes = payload := by
  unfold send at sent
  split at sent
  · rename_i short
    cases sent
    obtain ⟨frame, read, _, shown⟩ := @FrameAnalyzer.fromBuffer_shows
      ⟨payload.length, type, answer.flags complete, nativeToBig32 answer.number, payload⟩ short
      (nativeToBig32_lt _) around []
    rw [List.append_nil] at read
    exact ⟨rfl, rfl, rfl, frame, read, shown.type, shown.streamId, shown.flags,
      shown.payloadSize, FrameAnalyzer.span_bytes shown.payload shown.payloadSize⟩
  · cases sent

/-- What a frame of a response does at a client: the decoder of the client stays in step with
the encoder of the responses, and the stream is given what the frame says. -/
structure Arrives (answer : Answer) (encoder : Encoder) (written : Written) (client : Client)
    (event : Client.Event) : Prop where
  config : written.encoder.config = encoder.config
  linked : Linked written.encoder.table (client.decoderAfter event).table
  size : (client.decoderAfter event).table.tableSize ≤
    client.decoder.table.tableSize + fieldsSize answer.fields
  given : ∃ received, client.delivery event = some (nativeToBig32 answer.number, received) ∧
    received.said = written.said

/-- A frame with header fields. -/
theorem writeBlock_arrives {type : FrameType} {fields : List HeaderField} {limit : Nat}
    {client : Client} (block : type = .headers ∨ type = .continuation)
    (listed : answer.fields = fields)
    (wrote : answer.writeBlock lowerBound encoder type fields limit = .ok written)
    (linked : Linked encoder.table client.decoder.table)
    (portable : ∀ field ∈ answer.fields, field.Portable encoder.config)
    (bound : client.decoder.table.tableSize + fieldsSize answer.fields < 2 ^ 63)
    (around : Int → UInt8) :
    answer.Arrives encoder written client (written.event around) := by
  rw [listed] at portable bound
  obtain ⟨⟨buffers, count, after⟩, encoded, sent⟩ := Outcome.bind_eq_ok.mp wrote
  obtain ⟨same, said, typed, frame, read, byte, id, flags, size, payload⟩ := send_read sent around
  obtain ⟨unpadded, unprioritized, ends⟩ := answer.flags_plain (count = fields.length)
  rw [← flags] at unpadded unprioritized ends
  obtain ⟨decoder, decoded, stays, grown⟩ :=
    Encoder.encode_decode linked portable bound encoded payload
  have split := fieldsSize_append (fields.take count) (fields.drop count)
  rw [List.take_append_drop] at split
  have event : written.event around =
      .receiveFrame (Span.ofBytes around written.frame.bytes) := by
    refine if_neg ?_
    rw [typed]
    rcases block with rfl | rfl <;> decide
  have known : FrameType.ofByte frame.typeByte = some type := by
    rw [byte, FrameType.ofByte_value]
  have headers := FrameAnalyzer.headerBlock_unpadded unpadded unprioritized
  have continuation : frame.continuationBlock = ⟨0, frame.payloadSize⟩ := rfl
  have read_decoder : client.decoderAfter (written.event around) = decoder := by
    rw [event, Client.decoderAfter, read]
    simp only [known]
    rcases block with rfl | rfl
    · rw [Client.decoderFor, Client.afterBlock, headers, decoded]
    · rw [Client.decoderFor, Client.afterBlock, continuation, decoded]
  refine ⟨?_, ?_, ?_, ?_⟩
  · rw [same]
    exact (Encoder.encode_appends encoded).1
  · rw [same, read_decoder]
    exact stays
  · rw [read_decoder, listed]
    omega
  · rw [said, event, Client.delivery, read, ← id]
    simp only [known, Option.bind_eq_bind, Option.bind_some]
    rcases block with rfl | rfl
    · rw [Client.frameDelivery, headers, decoded]
      refine ⟨_, rfl, ?_⟩
      simp only [Stream.Received.said, Stream.Received.ending, ends, saying]
    · rw [Client.frameDelivery, continuation, decoded]
      refine ⟨_, rfl, ?_⟩
      simp only [Stream.Received.said, Stream.Received.ending, ends, saying]

private theorem write_arrives {client : Client}
    (wrote : answer.write lowerBound encoder = .ok written)
    (linked : Linked encoder.table client.decoder.table)
    (portable : ∀ field ∈ answer.fields, field.Portable encoder.config)
    (bound : client.decoder.table.tableSize + fieldsSize answer.fields < 2 ^ 63)
    (around : Int → UInt8) :
    answer.Arrives encoder written client (written.event around) := by
  unfold write at wrote
  cases part : answer.part with
  | headers fields limit =>
      rw [part] at wrote
      exact writeBlock_arrives (.inl rfl) (by rw [Answer.fields, part]) wrote linked portable bound
        around
  | continuation fields limit =>
      rw [part] at wrote
      exact writeBlock_arrives (.inr rfl) (by rw [Answer.fields, part]) wrote linked portable bound
        around
  | data payload =>
      rw [part] at wrote
      obtain ⟨same, said, typed, frame, read, byte, id, flags, size, content⟩ :=
        send_read wrote around
      obtain ⟨unpadded, _, ends⟩ := answer.flags_plain false
      rw [← flags] at unpadded ends
      have event : written.event around =
          .receiveDataFrame (Span.ofBytes around written.frame.bytes) := if_pos typed
      have kept : client.decoderAfter (written.event around) = client.decoder := by
        rw [event]
        exact @Client.decoderAfter_blockless (.receiveDataFrame _) trivial client
      have got : frame.getFrame .data = .ok frame := if_neg (not_not.mpr byte)
      refine ⟨by rw [same], by rw [same, kept]; exact linked, by rw [kept]; omega, ?_⟩
      rw [said, event, Client.delivery, read, Outcome.ok_bind, got, ← id]
      refine ⟨_, rfl, ?_⟩
      have body : (if frame.payloadSize ≠ 0 then (frame.span frame.data).bytes else []) =
          payload := by
        rw [FrameAnalyzer.data, FrameAnalyzer.content_unpadded unpadded, content]
        split
        · rfl
        · rename_i empty
          rw [size, not_not] at empty
          exact (List.length_eq_zero_iff.mp empty).symm
      simp only [Stream.Received.said, Stream.Received.ending, ends, saying, body]

end Answer

/-! ## Both sides -/

/-- An event of the client, or a part of a response that is written and received. -/
inductive Exchange
  | client (event : Client.Event)
  | answer (answer : Answer) (around : Int → UInt8)

namespace Exchange

/-- The bound to which the fields of an answer add. -/
def size : Exchange → Nat
  | .client _ => 0
  | .answer reply _ => fieldsSize reply.fields

/-- Header blocks come with the responses only, with fields that can be read back. -/
def Permitted (config : EncoderConfig) : Exchange → Prop
  | .client event => event.Blockless
  | .answer reply _ => ∀ field ∈ reply.fields, field.Portable config

instance (config : EncoderConfig) : ∀ exchange : Exchange, Decidable (exchange.Permitted config)
  | .client event => inferInstanceAs (Decidable event.Blockless)
  | .answer reply _ => inferInstanceAs (Decidable (∀ field ∈ reply.fields, _))

end Exchange

/-- A client, and the `rfc7541::encoder` that writes the responses to it. -/
def dialogue (lowerBound : LowerBound) : Machine (Client × Encoder) Exchange Tx Failure where
  step state exchange :=
    match exchange with
    | .client event => do
        let (client, out) ← (Client.machine lowerBound).step state.1 event
        .ok ((client, state.2), out)
    | .answer answer around => do
        let written ← answer.write lowerBound state.2
        let (client, out) ← (Client.machine lowerBound).step state.1 (written.event around)
        .ok ((client, written.encoder), out)

/-- What is said to the streams: the parts of a response to a stream that the client has
under its number, and what the client gives to its streams otherwise. A new stream was told
nothing. -/
def overheard (lowerBound : LowerBound) (state : Client × Encoder) (exchange : Exchange)
    (heard : Nat → List Said) : Nat → List Said :=
  match exchange with
  | .client (.send _) =>
      if state.1.isConnected then Function.update heard state.1.registry.size [] else heard
  | .client event => fun ptr =>
      heard ptr ++ (state.1.givenTo event ptr).map Stream.Received.said
  | .answer answer _ =>
      match answer.write lowerBound state.2 with
      | .error _ => heard
      | .ok written => fun ptr =>
          if state.1.registry.getStream (nativeToBig32 answer.number) = some ptr then
            heard ptr ++ [written.said]
          else heard ptr

/-- Both sides with what was said. -/
def recorded (lowerBound : LowerBound) :
    Machine ((Client × Encoder) × (Nat → List Said)) Exchange Tx Failure :=
  (dialogue lowerBound).observed (overheard lowerBound)

section Recorded

variable {lowerBound : LowerBound} {config : EncoderConfig}
  {history after : Machine.History ((Client × Encoder) × (Nat → List Said)) Tx}
  {exchange : Exchange} {remaining : List Exchange}

/-- What holds of both sides: the streams were given what was said, and the tables are in
step. -/
structure Conversed (lowerBound : LowerBound) (config : EncoderConfig)
    (history : Machine.History ((Client × Encoder) × (Nat → List Said)) Tx)
    (remaining : List Exchange) : Prop where
  given : ∃ journal : Client.Journal,
    Client.Multiplexed lowerBound ⟨(history.state.1.1, journal), history.emitted⟩ ∧
      Client.Enumerated ⟨(history.state.1.1, journal), history.emitted⟩ ∧
      ∀ ptr, (journal.given ptr).map Stream.Received.said = history.state.2 ptr
  linked : Linked history.state.1.2.table history.state.1.1.decoder.table
  config : history.state.1.2.config = config
  size : history.state.1.1.decoder.table.tableSize + (remaining.map Exchange.size).sum < 2 ^ 63

/-- What is written down about a frame. -/
theorem Client.noted_given {client : Client} {event : Client.Event} {journal : Client.Journal}
    {id : Nat} {received : Stream.Received}
    (delivered : client.delivery event = some (id, received)) (ptr : Nat) :
    (client.noted event journal).given ptr =
      journal.given ptr ++ if client.registry.getStream id = some ptr then [received] else [] := by
  cases event with
  | receiveFrame data => simp only [noted, givenTo, delivered]
  | receiveDataFrame buff => simp only [noted, givenTo, delivered]
  | _ => cases delivered

/-- An event of the client, with its journal. -/
theorem journaled_step {client next : Client} {event : Client.Event} {out emitted : List Tx}
    {journal : Client.Journal}
    (multiplexed : Client.Multiplexed lowerBound ⟨(client, journal), emitted⟩)
    (enumerated : Client.Enumerated ⟨(client, journal), emitted⟩)
    (stepped : (Client.machine lowerBound).step client event = .ok (next, out)) :
    Client.Multiplexed lowerBound ⟨(next, client.noted event journal), emitted ++ out⟩ ∧
      Client.Enumerated ⟨(next, client.noted event journal), emitted ++ out⟩ := by
  have taken : (Client.journaled lowerBound).advance ⟨(client, journal), emitted⟩ event =
      .ok ⟨(next, client.noted event journal), emitted ++ out⟩ :=
    Outcome.bind_eq_ok.mpr ⟨_, Outcome.bind_eq_ok.mpr ⟨_, stepped, rfl⟩, rfl⟩
  exact ⟨multiplexed.advance taken,
    enumerated.advance multiplexed.opened multiplexed.scheduled taken⟩

/-- **A step.** What is written arrives, and nothing else disturbs the tables. -/
theorem Conversed.advance (conversed : Conversed lowerBound config history (exchange :: remaining))
    (permitted : exchange.Permitted config)
    (taken : (recorded lowerBound).advance history exchange = .ok after) :
    Conversed lowerBound config after remaining := by
  obtain ⟨⟨client, encoder⟩, out, stepped, rfl⟩ := Machine.observed_advance taken
  obtain ⟨⟨journal, multiplexed, enumerated, said⟩, linked, same, size⟩ := conversed
  rw [List.map_cons, List.sum_cons] at size
  cases exchange with
  | client event =>
      obtain ⟨⟨next, sent⟩, moved, rest⟩ := Outcome.bind_eq_ok.mp stepped
      cases rest
      have decoder : client.decoder = history.state.1.1.decoder :=
        (Client.step_decoder moved).trans (@Client.decoderAfter_blockless event permitted _)
      obtain ⟨multiplexed, enumerated⟩ := journaled_step multiplexed enumerated moved
      refine ⟨⟨_, multiplexed, enumerated, fun ptr => ?_⟩, decoder ▸ linked, same, ?_⟩
      · cases event with
        | send request =>
            simp only [Client.noted, overheard]
            split
            · simp only [Function.update_apply]
              split
              · rfl
              · exact said ptr
            · exact said ptr
        | _ =>
            simp only [Client.noted, overheard, List.map_append]
            exact congrArg (· ++ _) (said ptr)
      · simp only [decoder]
        omega
  | answer answer around =>
      obtain ⟨written, wrote, moved⟩ := Outcome.bind_eq_ok.mp stepped
      obtain ⟨⟨next, sent⟩, moved, rest⟩ := Outcome.bind_eq_ok.mp moved
      cases rest
      have bound : history.state.1.1.decoder.table.tableSize + fieldsSize answer.fields <
          2 ^ 63 := by
        rw [Exchange.size] at size
        omega
      obtain ⟨kept, stays, grown, received, delivered, told⟩ :=
        Answer.write_arrives wrote linked (same ▸ permitted) bound around
      have decoder := Client.step_decoder moved
      obtain ⟨multiplexed, enumerated⟩ := journaled_step multiplexed enumerated moved
      refine ⟨⟨_, multiplexed, enumerated, fun ptr => ?_⟩, decoder ▸ stays, kept.trans same, ?_⟩
      · simp only [overheard, wrote, Client.noted_given delivered, List.map_append, said ptr]
        split
        · rw [List.map_singleton, told]
        · rw [List.map_nil, List.append_nil]
      · rw [Exchange.size] at size
        simp only [decoder]
        omega

end Recorded

end H2pp.Http2

import H2pp.Hpack.Encoder
import H2pp.Http2.FrameBuilder
import H2pp.Http2.Message
import H2pp.Lib.Machine

/-! # Streams

`stream.cpp`. A stream sends its request when it is scheduled, as much of it as the
limit of the call allows: the header list in a HEADERS frame and as many CONTINUATION
frames as it takes, then the body in DATA frames. Received frames go into the
response, which is given to the handler once.
-/

namespace H2pp.Http2

open Utils Hpack

/-- `HttpState`. -/
inductive HttpState
  | idle
  | opened
  | halfClosed
  | closed
  deriving DecidableEq, Repr

/-- `stream`. `timer` tells whether the timer is waiting, `responseHandler` whether
the handler has not been called yet, and `delivered` what it was called with. The
offset never exceeds the slice it points into. -/
structure Stream where
  httpId : Nat
  isScheduled : Bool
  remoteWindow : Nat
  localWindow : DummyWindow
  httpState : HttpState
  isContinuation : Bool
  sendBodyOffset : Nat
  request : Request
  response : Response
  timer : Bool
  responseHandler : Bool
  delivered : List (ErrorCode × Response)
  offsetInside : sendBodyOffset ≤ (request.bodyList.headD []).length

/-- What a call that sends leaves: the stream, the frames appended to `out`, the
encoder, and the number of bytes the call returns. -/
structure Turn where
  stream : Stream
  out : List OutFrame
  encoder : Encoder
  used : Nat

namespace Stream

/-- `stream(io, id, remote_size, local_size, r, handler)`. -/
def create (id remoteSize localSize : Nat) (request : Request) : Stream where
  httpId := id
  isScheduled := true
  remoteWindow := remoteSize
  localWindow := .create localSize (localSize / 4)
  httpState := .idle
  isContinuation := false
  sendBodyOffset := 0
  request
  response := .create
  timer := false
  responseHandler := true
  delivered := []
  offsetInside := Nat.zero_le _

/-- `has_tx_data()`. -/
def hasTxData (stream : Stream) : Bool :=
  stream.httpState = .halfClosed || stream.localWindow.needUpdate ||
    stream.request.headerList ≠ [] || stream.request.bodyList ≠ []

/-- `check_tx_data()`. -/
def checkTxData (stream : Stream) : Bool × Stream :=
  if !stream.isScheduled && stream.hasTxData then (true, { stream with isScheduled := true })
  else (false, stream)

/-- `is_finished()`. -/
def isFinished (stream : Stream) : Bool := stream.httpState = .closed

/-- `finished(ec)`. -/
def finished (stream : Stream) (ec : ErrorCode) : Stream :=
  if stream.responseHandler then
    { stream with
      responseHandler := false
      delivered := stream.delivered ++ [(ec, stream.response)]
      response := stream.response.movedFrom }
  else stream

/-- `reset(ec)`. -/
def reset (stream : Stream) (ec : ErrorCode) : Stream :=
  { stream with httpState := .closed, timer := false }.finished ec

/-- The timer's handler, when it was not cancelled. -/
def onTimeout (stream : Stream) : Stream :=
  if stream.timer then { stream with timer := false }.finished (.asio .timedOut) else stream

/-! ## Receiving -/

/-- The end of the response. -/
def endResponse (stream : Stream) : Stream :=
  { stream with httpState := .halfClosed, timer := false }.finished .success

/-- `on_receive_data(buff)`, with the analyzer over `buff`. -/
def onReceiveData (stream : Stream) (buff : Span) (frame : FrameAnalyzer) : Stream :=
  let stream := { stream with localWindow := stream.localWindow.dec buff.size }
  let stream :=
    if frame.payloadSize ≠ 0 then { stream with response := stream.response.insertBody frame }
    else stream
  if frame.flags &&& Flags.endStream ≠ 0 then stream.endResponse else stream

/-- `on_receive_headers(header, flags, raw_size)`. -/
def onReceiveHeaders (stream : Stream) (header : List HeaderField) (flags : UInt8)
    (rawSize : Nat) : Stream :=
  let stream := { stream with
    localWindow := stream.localWindow.dec rawSize
    response := stream.response.insertHeaders header }
  if flags &&& Flags.endStream ≠ 0 then stream.endResponse else stream

/-- `on_receive_reset(err)`. -/
def onReceiveReset (stream : Stream) (err : Nat) : Stream :=
  { stream with httpState := .closed }.finished (.http2 err)

/-- `on_receive_window_update(increment)`. -/
def onReceiveWindowUpdate (stream : Stream) (increment : Nat) : Stream :=
  { stream with remoteWindow := stream.remoteWindow + increment }

/-- `on_receive_continuation(header, flags, raw_size)`. The state is not changed here. -/
def onReceiveContinuation (stream : Stream) (header : List HeaderField) (flags : UInt8)
    (rawSize : Nat) : Stream :=
  let stream := { stream with
    localWindow := stream.localWindow.dec rawSize
    response := stream.response.insertHeaders header }
  if flags &&& Flags.endStream ≠ 0 then stream.finished .success else stream

/-! ## Sending -/

variable (lowerBound : LowerBound)

/-- The call of `encoder.encode` in `prepare_headers`. -/
def encodeHeaders (stream : Stream) (encoder : Encoder) (limit : Nat) :
    Except Failure (List Buffer × Nat × Encoder) :=
  encoder.encode lowerBound stream.request.headerList
    (if stream.isContinuation then sizeSub limit (2 * headerSize) else sizeSub limit headerSize)

/-- The flags of a frame after which the fields of `request` are left. -/
def blockFlags (request : Request) : UInt8 :=
  if request.headerList = [] then Flags.endHeaders else 0

/-- `prepare_headers(out, encoder, limit)`. -/
def prepareHeaders (stream : Stream) (encoder : Encoder) (limit : Nat) : Except Failure Turn := do
  let (buffers, count, encoder) ← stream.encodeHeaders lowerBound encoder limit
  if count = 0 then .ok ⟨stream, [], encoder, 0⟩
  else
    let request := stream.request.commitHeaders count
    let block := buffers.flatMap Buffer.data
    let flags := blockFlags request
    if stream.isContinuation then
      let frame := FrameBuilder.continuation stream.httpId flags block.length
      let out := [{ frame with payload := block }]
      let used := frame.size + block.length
      if request.headerList = [] ∧ request.bodyList = [] then
        let closing := (FrameBuilder.data stream.httpId Flags.endStream 0).1
        -- the size is asked of the buffer that was moved into `out`
        .ok ⟨{ stream with request }, out ++ [closing], encoder,
          used + Buffer.movedFrom.data.length⟩
      else .ok ⟨{ stream with request }, out, encoder, used⟩
    else
      let flags := if request.bodyList = [] then flags ||| Flags.endStream else flags
      let frame := FrameBuilder.headers stream.httpId flags block.length
      .ok ⟨{ stream with request, isContinuation := request.headerList ≠ [], timer := true },
        [{ frame with payload := block }], encoder, frame.size + block.length⟩

/-- What the loop of `prepare_body` leaves. -/
structure Copied where
  payload : Bytes
  bodyList : List Bytes
  offset : Nat
  inside : offset ≤ (bodyList.headD []).length

/-- The loop of `prepare_body`: fill a payload of `size` bytes from the slices. The
first slice is read before anything is compared, so there has to be one. -/
def copyBody : List Bytes → Nat → Nat → Except Failure Copied
  | [], _, _ => .error .undefinedBehaviour
  | slice :: slices, offset, size =>
      let toCopy := min size (slice.length - offset)
      let copied := (slice.drop offset).take toCopy
      if partly : offset + toCopy < slice.length then
        .ok ⟨copied, slice :: slices, offset + toCopy, Nat.le_of_lt partly⟩
      else if size - toCopy = 0 then .ok ⟨copied, slices, 0, Nat.zero_le _⟩
      else do
        let rest ← copyBody slices 0 (size - toCopy)
        .ok { rest with payload := copied ++ rest.payload }

/-- `left_size` and `payload_size` of `prepare_body(out, limit)`. -/
def bodySizes (stream : Stream) (limit : Nat) : Nat × Nat :=
  let leftSize := sizeSub stream.request.size stream.sendBodyOffset
  (leftSize, min (sizeSub limit headerSize) leftSize)

/-- The stream after the loop. -/
def withBody (stream : Stream) (copied : Copied) : Stream :=
  { stream with
    request := { stream.request with bodyList := copied.bodyList }
    sendBodyOffset := copied.offset
    offsetInside := copied.inside }

/-- The DATA frame of `prepare_body(out, limit)`, and the size of its payload span. -/
def dataFrame (stream : Stream) (limit : Nat) : OutFrame × Nat :=
  let (leftSize, payloadSize) := stream.bodySizes limit
  FrameBuilder.data stream.httpId (if payloadSize = leftSize then Flags.endStream else 0)
    payloadSize

/-- `prepare_body(out, limit)`: the stream, the frame and the value returned, which
is the size of the buffer that was moved into `out`. -/
def prepareBody (stream : Stream) (limit : Nat) : Except Failure (Stream × OutFrame × Nat) := do
  let copied ← copyBody stream.request.bodyList stream.sendBodyOffset (stream.dataFrame limit).2
  .ok (stream.withBody copied, { (stream.dataFrame limit).1 with payload := copied.payload },
    Buffer.movedFrom.data.length)

/-- The stream as `get_tx_data` opens it: an update of its window is taken. -/
def opened (stream : Stream) : Stream :=
  { stream with
    httpState := .opened
    localWindow := (stream.localWindow.update stream.httpId).2 }

/-- `get_tx_data` up to the body: the window update and the headers. -/
def headerPhase (stream : Stream) (encoder : Encoder) (limit : Nat) : Except Failure Turn := do
  let headers ← (
    if stream.request.headerList ≠ [] then stream.opened.prepareHeaders lowerBound encoder limit
    else .ok ⟨stream.opened, [], encoder, 0⟩ : Except Failure Turn)
  let updWindow := (stream.localWindow.update stream.httpId).1
  .ok { headers with
    out := updWindow.toList ++ headers.out
    used := (updWindow.map OutFrame.size).getD 0 + headers.used }

/-- Whether `get_tx_data` goes on with the body. -/
def bodyReady (turn : Turn) (limit : Nat) : Bool :=
  turn.stream.request.headerList = [] && turn.stream.request.size ≠ 0 &&
    sizeSub limit turn.used ≥ 2 * headerSize

/-- The body in `get_tx_data`. -/
def bodyPhase (turn : Turn) (limit : Nat) : Except Failure Turn :=
  if bodyReady turn limit then do
    let (stream, frame, used) ← turn.stream.prepareBody (sizeSub limit turn.used)
    .ok ⟨stream, turn.out ++ [frame], turn.encoder, turn.used + used⟩
  else .ok turn

/-- `get_tx_data(out, encoder, limit)`. -/
def getTxData (stream : Stream) (encoder : Encoder) (limit : Nat) : Except Failure Turn :=
  let stream := { stream with isScheduled := false }
  if stream.httpState = .halfClosed then
    let lastFrame := FrameBuilder.reset 0 stream.httpId
    .ok ⟨{ stream with httpState := .closed }, [lastFrame], encoder, lastFrame.size⟩
  else
    let limit := min limit stream.remoteWindow
    if limit ≤ 16 then .ok ⟨stream, [], encoder, 0⟩
    else do
      let headers ← headerPhase lowerBound stream encoder limit
      let turn ← bodyPhase headers limit
      .ok { turn with
        stream := { turn.stream with
          remoteWindow := sizeSub turn.stream.remoteWindow turn.used } }

/-! ## Events of a stream -/

/-- What happens to a stream apart from sending. -/
inductive Received
  | data (buff : Span) (frame : FrameAnalyzer)
  | headers (header : List HeaderField) (flags : UInt8) (rawSize : Nat)
  | reset (err : Nat)
  | windowUpdate (increment : Nat)
  | continuation (header : List HeaderField) (flags : UInt8) (rawSize : Nat)
  | cleanup (ec : ErrorCode)
  | timeout
  | schedule

/-- The member that handles it. -/
def receive (stream : Stream) : Received → Stream
  | .data buff frame => stream.onReceiveData buff frame
  | .headers header flags rawSize => stream.onReceiveHeaders header flags rawSize
  | .reset err => stream.onReceiveReset err
  | .windowUpdate increment => stream.onReceiveWindowUpdate increment
  | .continuation header flags rawSize => stream.onReceiveContinuation header flags rawSize
  | .cleanup ec => stream.reset ec
  | .timeout => stream.onTimeout
  | .schedule => stream.checkTxData.2

/-- The part of a stream that sending works on. -/
structure Sending where
  httpId : Nat
  request : Request
  sendBodyOffset : Nat
  isContinuation : Bool

/-- The part of a stream that sending works on. -/
def sending (stream : Stream) : Sending :=
  ⟨stream.httpId, stream.request, stream.sendBodyOffset, stream.isContinuation⟩

private theorem finished_sending (stream : Stream) (ec : ErrorCode) :
    (stream.finished ec).sending = stream.sending := by
  unfold finished
  split <;> rfl

private theorem endResponse_sending (stream : Stream) :
    stream.endResponse.sending = stream.sending :=
  finished_sending _ _

/-- What a stream receives does not touch what it sends. -/
theorem receive_sending (stream : Stream) (received : Received) :
    (stream.receive received).sending = stream.sending := by
  cases received with
  | data buff frame =>
      simp only [receive, onReceiveData]
      split <;> split
      · exact endResponse_sending _
      · exact endResponse_sending _
      · rfl
      · rfl
  | headers header flags rawSize =>
      simp only [receive, onReceiveHeaders]
      split
      · exact endResponse_sending _
      · rfl
  | reset err => exact finished_sending _ _
  | windowUpdate increment => rfl
  | continuation header flags rawSize =>
      simp only [receive, onReceiveContinuation]
      split
      · exact finished_sending _ _
      · rfl
  | cleanup ec => exact finished_sending _ _
  | timeout =>
      simp only [receive, onTimeout]
      split
      · exact finished_sending _ _
      · rfl
  | schedule =>
      simp only [receive, checkTxData]
      split <;> rfl

/-- An event of a stream: a call of `get_tx_data`, with the encoder as it is then, or
something received. -/
inductive Event
  | send (encoder : Encoder) (limit : Nat)
  | receive (received : Received)

/-- A stream with the frames it sends. -/
def machine : Machine Stream Event OutFrame Failure where
  step stream event :=
    match event with
    | .send encoder limit => do
        let turn ← stream.getTxData lowerBound encoder limit
        .ok (turn.stream, turn.out)
    | .receive received => .ok (stream.receive received, [])

/-! ## What the calls can do -/

variable {lowerBound} {stream : Stream} {encoder : Encoder} {limit : Nat} {turn : Turn}

/-- What `prepare_headers` can do: nothing, a HEADERS frame, a CONTINUATION frame, or a
CONTINUATION frame and an empty DATA frame that closes the request. -/
inductive HeadersPrepared (lowerBound : LowerBound) (stream : Stream) (encoder : Encoder)
    (limit : Nat) : Turn → Prop
  | nothing {buffers : List Buffer} {after : Encoder}
      (encoded : stream.encodeHeaders lowerBound encoder limit = .ok (buffers, 0, after)) :
      HeadersPrepared lowerBound stream encoder limit ⟨stream, [], after, 0⟩
  | headers {buffers : List Buffer} {count : Nat} {after : Encoder}
      (encoded : stream.encodeHeaders lowerBound encoder limit = .ok (buffers, count, after))
      (some : count ≠ 0) (first : stream.isContinuation = false) :
      HeadersPrepared lowerBound stream encoder limit
        ⟨{ stream with
            request := stream.request.commitHeaders count
            isContinuation := (stream.request.commitHeaders count).headerList ≠ []
            timer := true },
          [{ FrameBuilder.headers stream.httpId
              (if stream.request.bodyList = [] then
                blockFlags (stream.request.commitHeaders count) ||| Flags.endStream
              else blockFlags (stream.request.commitHeaders count))
              (buffers.flatMap Buffer.data).length with payload := buffers.flatMap Buffer.data }],
          after, headerSize + (buffers.flatMap Buffer.data).length⟩
  | continuation {buffers : List Buffer} {count : Nat} {after : Encoder}
      (encoded : stream.encodeHeaders lowerBound encoder limit = .ok (buffers, count, after))
      (some : count ≠ 0) (later : stream.isContinuation = true)
      (more : ¬ ((stream.request.commitHeaders count).headerList = [] ∧
        stream.request.bodyList = [])) :
      HeadersPrepared lowerBound stream encoder limit
        ⟨{ stream with request := stream.request.commitHeaders count },
          [{ FrameBuilder.continuation stream.httpId
              (blockFlags (stream.request.commitHeaders count))
              (buffers.flatMap Buffer.data).length with payload := buffers.flatMap Buffer.data }],
          after, headerSize + (buffers.flatMap Buffer.data).length⟩
  | closing {buffers : List Buffer} {count : Nat} {after : Encoder}
      (encoded : stream.encodeHeaders lowerBound encoder limit = .ok (buffers, count, after))
      (some : count ≠ 0) (later : stream.isContinuation = true)
      (all : (stream.request.commitHeaders count).headerList = [])
      (bodyless : stream.request.bodyList = []) :
      HeadersPrepared lowerBound stream encoder limit
        ⟨{ stream with request := stream.request.commitHeaders count },
          [{ FrameBuilder.continuation stream.httpId
              (blockFlags (stream.request.commitHeaders count))
              (buffers.flatMap Buffer.data).length with payload := buffers.flatMap Buffer.data },
            (FrameBuilder.data stream.httpId Flags.endStream 0).1],
          after, headerSize + (buffers.flatMap Buffer.data).length⟩

/-- `prepare_headers` does one of the four things above. -/
theorem prepareHeaders_spec
    (prepared : stream.prepareHeaders lowerBound encoder limit = .ok turn) :
    HeadersPrepared lowerBound stream encoder limit turn := by
  obtain ⟨⟨buffers, count, after⟩, encoded, rest⟩ := Outcome.bind_eq_ok.mp prepared
  simp only at rest
  split at rest
  · rename_i none
    cases rest
    exact .nothing (none ▸ encoded)
  · rename_i some
    split at rest
    · rename_i later
      split at rest
      · rename_i closes
        cases rest
        exact .closing encoded some later closes.1 closes.2
      · rename_i more
        cases rest
        exact .continuation encoded some later more
    · rename_i first
      cases rest
      exact .headers encoded some (Bool.eq_false_of_not_eq_true first)

/-- The header phase sends a window update, if one is due, and then the headers. -/
theorem headerPhase_cases (sent : stream.headerPhase lowerBound encoder limit = .ok turn) :
    ∃ headers : Turn,
      (stream.request.headerList ≠ [] ∧
          HeadersPrepared lowerBound stream.opened encoder limit headers ∨
        stream.request.headerList = [] ∧ headers = ⟨stream.opened, [], encoder, 0⟩) ∧
      turn = { headers with
        out := (stream.localWindow.update stream.httpId).1.toList ++ headers.out
        used := ((stream.localWindow.update stream.httpId).1.map OutFrame.size).getD 0 +
          headers.used } := by
  obtain ⟨headers, prepared, rest⟩ := Outcome.bind_eq_ok.mp sent
  cases rest
  refine ⟨headers, ?_, rfl⟩
  split at prepared
  · rename_i some
    exact .inl ⟨some, prepareHeaders_spec prepared⟩
  · rename_i none
    cases prepared
    exact .inr ⟨Decidable.not_not.mp none, rfl⟩

/-- The window update comes first, then the headers if there are any left. -/
theorem headerPhase_spec (sent : stream.headerPhase lowerBound encoder limit = .ok turn) :
    ∃ headers : Turn,
      (stream.request.headerList ≠ [] ∧
          HeadersPrepared lowerBound stream.opened encoder limit headers ∨
        stream.request.headerList = [] ∧ headers = ⟨stream.opened, [], encoder, 0⟩) ∧
      turn.stream = headers.stream ∧ turn.encoder = headers.encoder ∧
      turn.out = (stream.localWindow.update stream.httpId).1.toList ++ headers.out := by
  obtain ⟨headers, prepared, rfl⟩ := headerPhase_cases sent
  exact ⟨headers, prepared, rfl, rfl, rfl⟩

/-- The header phase fails only with the encoder. -/
theorem headerPhase_failed {failure : Failure}
    (failed : stream.headerPhase lowerBound encoder limit = .error failure) :
    stream.request.headerList ≠ [] ∧
      stream.encodeHeaders lowerBound encoder limit = .error failure := by
  rcases Outcome.bind_eq_error.mp failed with first | ⟨_, _, same⟩
  · split at first
    · rename_i listed
      refine ⟨listed, (Outcome.bind_eq_error.mp first).resolve_right ?_⟩
      rintro ⟨result, _, rest⟩
      refine absurd rest (Outcome.ite_ne_error (Outcome.ok_ne_error _ _) ?_)
      refine Outcome.ite_ne_error ?_ (Outcome.ok_ne_error _ _)
      exact Outcome.ite_ne_error (Outcome.ok_ne_error _ _) (Outcome.ok_ne_error _ _)
    · cases first
  · cases same

/-- The body phase copies from the body, if it does anything to the stream. -/
theorem bodyPhase_stream {after : Turn} (sent : bodyPhase turn limit = .ok after) :
    after.stream = turn.stream ∨ ∃ copied, after.stream = turn.stream.withBody copied := by
  unfold bodyPhase at sent
  split at sent
  · obtain ⟨⟨stream, frame, used⟩, prepared, same⟩ := Outcome.bind_eq_ok.mp sent
    obtain ⟨copied, _, withBody⟩ := Outcome.bind_eq_ok.mp prepared
    cases withBody
    cases same
    exact .inr ⟨copied, rfl⟩
  · cases sent
    exact .inl rfl

/-- What `get_tx_data` can do: end the stream, nothing, or send. -/
theorem getTxData_spec (sent : stream.getTxData lowerBound encoder limit = .ok turn) :
    stream.httpState = .halfClosed ∧
        turn = ⟨{ stream with isScheduled := false, httpState := .closed },
          [FrameBuilder.reset 0 stream.httpId], encoder, 13⟩ ∨
      stream.httpState ≠ .halfClosed ∧ min limit stream.remoteWindow ≤ 16 ∧
        turn = ⟨{ stream with isScheduled := false }, [], encoder, 0⟩ ∨
      stream.httpState ≠ .halfClosed ∧ 16 < min limit stream.remoteWindow ∧
        ∃ headers body : Turn,
        { stream with isScheduled := false }.headerPhase lowerBound encoder
            (min limit stream.remoteWindow) = .ok headers ∧
          bodyPhase headers (min limit stream.remoteWindow) = .ok body ∧
          turn = { body with
            stream := { body.stream with
              remoteWindow := sizeSub body.stream.remoteWindow body.used } } := by
  unfold getTxData at sent
  simp only at sent
  split at sent
  · rename_i half
    cases sent
    exact .inl ⟨half, rfl⟩
  · rename_i half
    split at sent
    · rename_i small
      cases sent
      exact .inr (.inl ⟨half, small, rfl⟩)
    · rename_i large
      obtain ⟨headers, first, rest⟩ := Outcome.bind_eq_ok.mp sent
      obtain ⟨body, second, same⟩ := Outcome.bind_eq_ok.mp rest
      cases same
      exact .inr (.inr ⟨half, Nat.not_le.mp large, headers, body, first, second, rfl⟩)

/-- Whether a call of `get_tx_data` gets as far as the window update. -/
def Sends (stream : Stream) (limit : Nat) : Prop :=
  stream.httpState ≠ .halfClosed ∧ 16 < min limit stream.remoteWindow

instance (stream : Stream) (limit : Nat) : Decidable (stream.Sends limit) :=
  inferInstanceAs (Decidable (_ ∧ _))

/-- A call that sends goes through its two phases. -/
theorem getTxData_eq_ok_iff (sends : stream.Sends limit) :
    stream.getTxData lowerBound encoder limit = .ok turn ↔
      ∃ headers body : Turn,
        { stream with isScheduled := false }.headerPhase lowerBound encoder
          (min limit stream.remoteWindow) = .ok headers ∧
        bodyPhase headers (min limit stream.remoteWindow) = .ok body ∧
        turn = { body with
          stream := { body.stream with
            remoteWindow := sizeSub body.stream.remoteWindow body.used } } := by
  constructor
  · intro sent
    rcases getTxData_spec sent with ⟨half, _⟩ | ⟨_, small, _⟩ | ⟨_, _, phases⟩
    · exact absurd half sends.1
    · exact absurd sends.2 (Nat.not_lt.mpr small)
    · exact phases
  · rintro ⟨headers, body, first, second, rfl⟩
    unfold getTxData
    simp only
    rw [if_neg sends.1, if_neg (Nat.not_le.mpr sends.2), first, Outcome.ok_bind, second,
      Outcome.ok_bind]

/-! ## The body -/

/-- The bytes of the body that have not been sent. -/
def unsent (stream : Stream) : Bytes := stream.request.bodyList.flatten.drop stream.sendBodyOffset

/-- A payload that is not larger than what is left is filled with the next bytes. -/
theorem copyBody_ok {slices : List Bytes} {offset size : Nat} (some : slices ≠ [])
    (inside : offset ≤ (slices.headD []).length)
    (enough : size ≤ (slices.flatten.drop offset).length) :
    ∃ copied, copyBody slices offset size = .ok copied ∧
      copied.payload = (slices.flatten.drop offset).take size ∧
      copied.bodyList.flatten.drop copied.offset = (slices.flatten.drop offset).drop size := by
  induction slices generalizing offset size with
  | nil => exact absurd rfl some
  | cons slice slices ih =>
      rw [List.headD_cons] at inside
      rw [List.flatten_cons, List.drop_append_of_le_length inside] at enough ⊢
      rw [List.length_append, List.length_drop] at enough
      unfold copyBody
      simp only
      split
      · rename_i partly
        have all : min size (slice.length - offset) = size := by omega
        refine ⟨_, rfl, ?_, ?_⟩
        · simp only
          rw [all, List.take_append_of_le_length (by rw [List.length_drop]; omega)]
        · simp only
          rw [all, List.flatten_cons, List.drop_append_of_le_length (by omega),
            List.drop_append_of_le_length (by rw [List.length_drop]; omega), List.drop_drop]
      · rename_i whole
        have most : min size (slice.length - offset) = slice.length - offset := by omega
        have copied : (slice.drop offset).take (slice.length - offset) = slice.drop offset :=
          List.take_of_length_le (Nat.le_of_eq List.length_drop)
        rw [most, copied]
        split
        · have exactly : size = (slice.drop offset).length := by
            rw [List.length_drop]
            omega
          refine ⟨_, rfl, ?_, ?_⟩
          · rw [exactly, List.take_left]
          · rw [exactly, List.drop_left]
            rfl
        · rename_i more
          have left : slices ≠ [] := by
            rintro rfl
            simp only [List.flatten_nil, List.length_nil] at enough
            omega
          have shorter : size - (slice.length - offset) ≤ (slices.flatten.drop 0).length := by
            rw [List.drop_zero]
            omega
          have long : (slice.drop offset).length ≤ size := by
            rw [List.length_drop]
            omega
          obtain ⟨rest, filled, payload, remaining⟩ := ih left (Nat.zero_le _) shorter
          refine ⟨_, by rw [filled]; rfl, ?_, ?_⟩
          · simp only
            rw [payload, List.drop_zero, List.take_append, List.take_of_length_le long,
              List.length_drop]
          · simp only
            rw [remaining, List.drop_zero, List.drop_append, List.drop_eq_nil_of_le long,
              List.nil_append, List.length_drop]

/-- When no slice is left, or less than the payload takes, a slice is read behind the
last one. -/
theorem copyBody_undefined {slices : List Bytes} {offset size : Nat}
    (inside : offset ≤ (slices.headD []).length)
    (short : slices = [] ∨ (slices.flatten.drop offset).length < size) :
    copyBody slices offset size = .error .undefinedBehaviour := by
  induction slices generalizing offset size with
  | nil => rfl
  | cons slice slices ih =>
      rw [List.headD_cons] at inside
      have less := short.resolve_left (List.cons_ne_nil _ _)
      rw [List.flatten_cons, List.drop_append_of_le_length inside, List.length_append,
        List.length_drop] at less
      unfold copyBody
      simp only
      rw [dif_neg (by omega), if_neg (by omega), ih (Nat.zero_le _) (.inr ?_)]
      · rfl
      · rw [List.drop_zero]
        omega

/-- A payload that is not larger than what is left takes the next bytes of the body. -/
theorem prepareBody_ok (some : stream.request.bodyList ≠ [])
    (enough : (stream.dataFrame limit).2 ≤ stream.unsent.length) :
    ∃ after : Stream,
      stream.prepareBody limit = .ok (after, { (stream.dataFrame limit).1 with
        payload := stream.unsent.take (stream.dataFrame limit).2 }, 0) ∧
      after.unsent = stream.unsent.drop (stream.dataFrame limit).2 ∧
      after.request.headerList = stream.request.headerList ∧
      after.request.size = stream.request.size ∧ after.httpId = stream.httpId ∧
      after.isContinuation = stream.isContinuation := by
  obtain ⟨copied, filled, payload, remaining⟩ :=
    copyBody_ok some stream.offsetInside enough
  refine ⟨stream.withBody copied, ?_, remaining, rfl, rfl, rfl, rfl⟩
  rw [prepareBody, filled, Outcome.ok_bind, payload]
  rfl

/-- The frame of `prepare_body` is a DATA frame of the stream. -/
theorem prepareBody_frame {after : Stream} {frame : OutFrame} {used : Nat}
    (filled : stream.prepareBody limit = .ok (after, frame, used)) :
    frame.type = .data ∧ frame.streamId = stream.httpId := by
  obtain ⟨copied, _, same⟩ := Outcome.bind_eq_ok.mp filled
  cases same
  exact ⟨rfl, rfl⟩

/-- Otherwise a slice is read behind the last one. -/
theorem prepareBody_undefined
    (short : stream.request.bodyList = [] ∨ stream.unsent.length < (stream.dataFrame limit).2) :
    stream.prepareBody limit = .error .undefinedBehaviour := by
  rw [prepareBody, copyBody_undefined stream.offsetInside short, Outcome.error_bind]

end Stream

end H2pp.Http2

import H2pp.Http2.Frame
import H2pp.Lib.Framing
import H2pp.Utils.Buffer

/-! # Reading frames from the connection

`base_client::on_read`. The transport fills the buffer returned by the previous
call; the call dispatches all complete frames in it and returns a buffer for the
next read. Depending on where the read ended, that is the same buffer with the
dispatched bytes removed, a larger one, or a new one because the old one was moved
into the stream that received it.
-/

namespace H2pp.Http2

open Utils

/-- The members of the client that `on_read` calls. A handler that throws leaves
the client as it was at that point. -/
structure Handlers (Client : Type) where
  maxFrameSize : Client → Nat
  onReceiveFrame : Client → Span → Client × Option Failure
  onReceiveDataFrame : Client → Buffer → Client × Option Failure
  initiateDisconnect : Client → ErrorCode → Client
  initWrite : Client → Client

/-- The variables of `on_read`. -/
structure ReadState (Client : Type) where
  client : Client
  ioBuff : Buffer
  incoming : Span
  usedBytes : Nat

namespace Reader

variable {Client : Type} (handlers : Handlers Client)

/-- To the next frame in the buffer. -/
def advance (state : ReadState Client) (client : Client) (count : Nat) : ReadState Client :=
  { state with
    client
    incoming := state.incoming.subspan count
    usedBytes := state.usedBytes + count }

/-- The buffer for an incomplete frame: a larger one if the frame does not fit. -/
def reserve (state : ReadState Client) (frame : FrameAnalyzer) : ReadState Client :=
  if state.ioBuff.data.length + state.ioBuff.prepareSize < frame.size then
    { state with ioBuff := (Buffer.create frame.size).commit frame.buffer.bytes, usedBytes := 0 }
  else state

/-- The loop of `on_read`, with the exception that ends it, if any. Every round
dispatches at least a frame header. -/
def readLoop : Nat → ReadState Client → ReadState Client × Option Failure
  | 0, state => (state, none)
  | fuel + 1, state =>
      if state.incoming.size < headerSize then (state, none)
      else
        match FrameAnalyzer.fromBuffer state.incoming with
        | .error failure => (state, some failure)
        | .ok frame =>
            match frame.check (handlers.maxFrameSize state.client) with
            | .error failure => (state, some failure)
            | .ok () =>
                if frame.isComplete then
                  if frame.typeByte = FrameType.data.value then
                    if state.usedBytes = 0 ∧ frame.buffer.size = state.ioBuff.data.length then
                      -- the buffer holds this frame only and is moved into the handler
                      match handlers.onReceiveDataFrame state.client state.ioBuff with
                      | (client, some failure) =>
                          (⟨client, .movedFrom, state.incoming, 0⟩, some failure)
                      | (client, none) => (⟨client, .movedFrom, state.incoming.first 0, 0⟩, none)
                    else
                      match handlers.onReceiveDataFrame state.client
                          ((Buffer.create frame.buffer.size).commit frame.buffer.bytes) with
                      | (client, some failure) => ({ state with client }, some failure)
                      | (client, none) => readLoop fuel (advance state client frame.buffer.size)
                  else
                    match handlers.onReceiveFrame state.client frame.buffer with
                    | (client, some failure) => ({ state with client }, some failure)
                    | (client, none) => readLoop fuel (advance state client frame.buffer.size)
                else (reserve state frame, none)

/-- The code an exception is reported with. -/
def disconnectCode : Failure → ErrorCode
  | .systemError code _ => code
  | _ => .internalError

/-- The buffer `on_read` returns after its loop. -/
def returned (state : ReadState Client) : Buffer :=
  if state.incoming.size = 0 then .create 64
  else if state.usedBytes ≠ 0 then state.ioBuff.consume state.usedBytes
  else state.ioBuff

/-- `base_client::on_read(io_buff)`, with `around` in the memory around the buffer. -/
def onRead (around : Int → UInt8) (client : Client) (ioBuff : Buffer) :
    Except Failure (Client × Buffer) :=
  if ioBuff.data.length < headerSize then .ok (client, ioBuff)
  else
    match readLoop handlers ioBuff.data.length
        ⟨client, ioBuff, Span.ofBytes around ioBuff.data, 0⟩ with
    | (_, some .undefinedBehaviour) => .error .undefinedBehaviour
    | (state, some failure) =>
        .ok (handlers.initWrite (handlers.initiateDisconnect state.client
          (disconnectCode failure)), returned state)
    | (state, none) => .ok (handlers.initWrite state.client, returned state)

/-- Successive reads: each chunk is committed to the buffer returned before. -/
def readAll (around : Int → UInt8) : Client → Buffer → List Bytes → Except Failure (Client × Buffer)
  | client, buffer, [] => .ok (client, buffer)
  | client, buffer, chunk :: chunks => do
      let (client, buffer) ← onRead handlers around client (buffer.commit chunk)
      readAll around client buffer chunks

variable {handlers} {keeps : Client → Prop}

/-- What a handler of frames can leave. -/
inductive Handled (handlers : Handlers Client) (client : Client)
    (outcome : Client × Option Failure) : Prop
  | frame (data : Span) (called : handlers.onReceiveFrame client data = outcome)
  | data (buff : Buffer) (called : handlers.onReceiveDataFrame client buff = outcome)

/-- Reserving room leaves the client alone. -/
theorem reserve_client (state : ReadState Client) (frame : FrameAnalyzer) :
    (reserve state frame).client = state.client := by
  rw [reserve, apply_ite ReadState.client, ite_self]

/-- A turn of the loop leaves the client as it is, or calls one handler. Then it is the
last turn, or the handler has returned and the loop goes on behind the frame. -/
theorem readLoop_turn {fuel : Nat} {state : ReadState Client}
    {result : ReadState Client × Option Failure}
    (ran : readLoop handlers (fuel + 1) state = result) :
    result.1.client = state.client ∨
      Handled handlers state.client (result.1.client, result.2) ∨
      ∃ client count, Handled handlers state.client (client, none) ∧
        readLoop handlers fuel (advance state client count) = result := by
  rw [readLoop] at ran
  split at ran
  · exact .inl (ran ▸ rfl)
  split at ran
  · exact .inl (ran ▸ rfl)
  split at ran
  · exact .inl (ran ▸ rfl)
  split at ran
  · split at ran
    · split at ran
      · split at ran <;> rename_i called
        · exact .inr (.inl (ran ▸ .data _ called))
        · exact .inr (.inl (ran ▸ .data _ called))
      · split at ran <;> rename_i called
        · exact .inr (.inl (ran ▸ .data _ called))
        · exact .inr (.inr ⟨_, _, .data _ called, ran⟩)
    · split at ran <;> rename_i called
      · exact .inr (.inl (ran ▸ .frame _ called))
      · exact .inr (.inr ⟨_, _, .frame _ called, ran⟩)
  · left
    rw [← ran]
    exact reserve_client state _

/-- What the handlers of frames keep, while their behaviour is defined. -/
structure Keeps (handlers : Handlers Client) (keeps : Client → Prop) : Prop where
  frame : ∀ client data, keeps client →
    (handlers.onReceiveFrame client data).2 ≠ some .undefinedBehaviour →
    keeps (handlers.onReceiveFrame client data).1
  data : ∀ client buff, keeps client →
    (handlers.onReceiveDataFrame client buff).2 ≠ some .undefinedBehaviour →
    keeps (handlers.onReceiveDataFrame client buff).1

private theorem Keeps.handled (kept : Keeps handlers keeps) {client : Client}
    {outcome : Client × Option Failure} (handled : Handled handlers client outcome)
    (start : keeps client) (defined : outcome.2 ≠ some .undefinedBehaviour) : keeps outcome.1 := by
  cases handled with
  | frame data called =>
      subst called
      exact kept.frame client data start defined
  | data buff called =>
      subst called
      exact kept.data client buff start defined

/-- What the handlers of frames keep is kept by the loop. -/
theorem readLoop_keeps (kept : Keeps handlers keeps) {fuel : Nat} {state : ReadState Client}
    (start : keeps state.client)
    (defined : (readLoop handlers fuel state).2 ≠ some .undefinedBehaviour) :
    keeps (readLoop handlers fuel state).1.client := by
  induction fuel generalizing state with
  | zero => exact start
  | succ fuel ih =>
      rcases readLoop_turn rfl with same | handled | ⟨client, count, handled, goes⟩
      · rw [same]
        exact start
      · exact kept.handled handled start defined
      · rw [← goes] at defined ⊢
        exact ih (kept.handled handled start nofun) defined

/-- The same for a whole call of `on_read`. -/
theorem onRead_keeps (kept : Keeps handlers keeps)
    (onFailure : ∀ client ec, keeps client → keeps (handlers.initiateDisconnect client ec))
    (onWrite : ∀ client, keeps client → keeps (handlers.initWrite client))
    {around : Int → UInt8} {client next : Client} {buffer after : Buffer} (start : keeps client)
    (read : onRead handlers around client buffer = .ok (next, after)) : keeps next := by
  unfold onRead at read
  split at read
  · cases read
    exact start
  · have loop := @readLoop_keeps _ handlers _ kept buffer.data.length
      ⟨client, buffer, Span.ofBytes around buffer.data, 0⟩ start
    generalize readLoop handlers buffer.data.length
      ⟨client, buffer, Span.ofBytes around buffer.data, 0⟩ = outcome at loop read
    obtain ⟨state, failure⟩ := outcome
    cases failure with
    | none =>
        cases read
        exact onWrite _ (loop nofun)
    | some failure =>
        cases failure with
        | undefinedBehaviour => cases read
        | _ =>
            cases read
            exact onWrite _ (onFailure _ _ (loop nofun))

end Reader

/-! ## The stream as a sequence of frames -/

/-- A frame as it is dispatched, with its bytes. -/
inductive Dispatched
  | data (bytes : Bytes)
  | frame (bytes : Bytes)
  deriving DecidableEq, Repr

/-- The bytes of the frame. -/
def Dispatched.bytes : Dispatched → Bytes
  | .data bytes => bytes
  | .frame bytes => bytes

namespace Wire

/-- The payload length in a frame header. -/
def payloadLength (stream : Bytes) : Nat :=
  (stream.getD 0 0).toNat * 2 ^ 16 + (stream.getD 1 0).toNat * 2 ^ 8 + (stream.getD 2 0).toNat

/-- The frame type byte in a frame header. -/
def typeByte (stream : Bytes) : UInt8 := stream.getD 3 0

/-- The dispatch of a frame by its type. -/
def dispatch (frame : Bytes) : Dispatched :=
  if typeByte frame = FrameType.data.value then .data frame else .frame frame

/-- What is known about the first frame of the stream, when frames may have `limit`
bytes of payload. -/
def classify (limit : Nat) (stream : Bytes) : Framing.Verdict Dispatched :=
  if stream.length < headerSize then .wait
  else if FrameType.ofByte (typeByte stream) = none ∨ payloadLength stream > limit then .reject
  else if stream.length < headerSize + payloadLength stream then .wait
  else .take (dispatch (stream.take (headerSize + payloadLength stream)))
    (headerSize + payloadLength stream)

private theorem getD_append {first : Bytes} (more : Bytes) {index : Nat}
    (inside : index < first.length) :
    (first ++ more).getD index 0 = first.getD index 0 := by
  rw [List.getD_eq_getElem?_getD, List.getD_eq_getElem?_getD, List.getElem?_append_left inside]

/-- A header does not change as the stream goes on. -/
theorem header_append {stream : Bytes} (long : headerSize ≤ stream.length) (more : Bytes) :
    payloadLength (stream ++ more) = payloadLength stream ∧
      typeByte (stream ++ more) = typeByte stream := by
  have size : headerSize = 9 := rfl
  unfold payloadLength typeByte
  rw [getD_append more (by omega), getD_append more (by omega), getD_append more (by omega),
    getD_append more (by omega)]
  exact ⟨rfl, rfl⟩

/-- The frames of a stream; the largest payload may depend on the frames before. -/
def frames (limit : List Dispatched → Nat) : Framing.Format (List Dispatched) UInt8 Dispatched where
  classify log stream := classify (limit log) stream
  next log frame := log ++ [frame]
  bounds := by
    intro log stream item count verdict
    have size : headerSize = 9 := rfl
    unfold classify at verdict
    split at verdict
    · cases verdict
    · split at verdict
      · cases verdict
      · split at verdict
        · cases verdict
        · cases verdict
          omega
  take_append := by
    intro log stream item count verdict more
    unfold classify at verdict ⊢
    split at verdict
    · cases verdict
    · rename_i long
      obtain ⟨length, type⟩ := header_append (Nat.not_lt.mp long) more
      rw [length, type, List.length_append, if_neg (by omega)]
      split at verdict
      · cases verdict
      · rename_i accepted
        rw [if_neg accepted]
        split at verdict
        · cases verdict
        · rename_i complete
          rw [if_neg (by omega), List.take_append_of_le_length (Nat.not_lt.mp complete)]
          exact verdict
  reject_append := by
    intro log stream verdict more
    unfold classify at verdict ⊢
    split at verdict
    · cases verdict
    · rename_i long
      obtain ⟨length, type⟩ := header_append (Nat.not_lt.mp long) more
      rw [length, type, List.length_append, if_neg (by omega)]
      split at verdict
      · rename_i rejected
        rw [if_pos rejected]
      · split at verdict <;> cases verdict

/-- A frame consists of the bytes it takes from the stream. -/
theorem bytes_dispatch (frame : Bytes) : (dispatch frame).bytes = frame := by
  unfold dispatch
  split <;> rfl

private theorem classify_take {limit : Nat} {stream : Bytes} {item : Dispatched} {count : Nat}
    (verdict : classify limit stream = .take item count) : item.bytes = stream.take count := by
  unfold classify at verdict
  split at verdict
  · cases verdict
  · split at verdict
    · cases verdict
    · split at verdict
      · cases verdict
      · cases verdict
        exact bytes_dispatch _

/-- The state is the log of all frames so far. -/
theorem cut_state (limit : List Dispatched → Nat) (log : List Dispatched) (stream : Bytes) :
    ((frames limit).cut log stream).state = log ++ ((frames limit).cut log stream).items := by
  refine Framing.Format.cut_induction (motive := fun log _ cut => cut.state = log ++ cut.items)
    ?_ ?_ log stream
  · intro log _ _
    exact (List.append_nil log).symm
  · intro log _ item _ later _ same
    rw [same]
    exact List.append_assoc log [item] later.items

/-- The frames and the rest are the whole stream. -/
theorem cut_bytes (limit : List Dispatched → Nat) (log : List Dispatched) (stream : Bytes) :
    ((frames limit).cut log stream).items.flatMap Dispatched.bytes ++
      ((frames limit).cut log stream).rest = stream := by
  refine Framing.Format.cut_induction
    (motive := fun _ stream cut => cut.items.flatMap Dispatched.bytes ++ cut.rest = stream)
    ?_ ?_ log stream
  · intro _ stream _
    exact List.nil_append stream
  · intro _ stream item count later verdict same
    rw [List.flatMap_cons, List.append_assoc, same, classify_take verdict, List.take_append_drop]

end Wire

/-- An analyzer over a span sees the first frame of the span's bytes. -/
theorem FrameAnalyzer.fromBuffer_spec (span : Span) (long : headerSize ≤ span.size) :
    ∃ frame, fromBuffer span = .ok frame ∧
      frame.payloadSize = Wire.payloadLength span.bytes ∧
      frame.typeByte = Wire.typeByte span.bytes ∧
      frame.buffer.bytes = span.bytes.take (headerSize + Wire.payloadLength span.bytes) ∧
      frame.buffer.size = min (headerSize + Wire.payloadLength span.bytes) span.size := by
  have size : headerSize = 9 := rfl
  have byte : ∀ index : Nat, index < 9 → span.bytes.getD index 0 = span.mem index := by
    intro index inside
    rw [List.getD_eq_getElem?_getD, Span.bytes_getElem? _ _ (by omega), Option.getD_some]
  have length : Wire.payloadLength span.bytes = readLength span := by
    rw [Wire.payloadLength, byte 0 (by omega), byte 1 (by omega), byte 2 (by omega), readLength]
    rfl
  have type : Wire.typeByte span.bytes = span.mem 3 := byte 3 (by omega)
  rcases fromBuffer_cases span with ⟨short, -⟩ | ⟨-, frame, read, taken⟩
  · exact absurd short (Nat.not_lt.mpr long)
  · refine ⟨frame, read, ?_, ?_, ?_, ?_⟩
    · rw [payloadSize, taken, length]
      simp only [readLength, Span.first]
    · rw [typeByte, taken, type]
      simp only [Span.first]
    · rw [taken, length, Span.bytes_first _ _ (Nat.min_le_right _ _), ← Span.length_bytes,
        ← List.take_eq_take_min]
    · rw [taken, length]
      simp only [Span.first]

/-- A frame is refused if its type is unknown or its payload too long. -/
theorem FrameAnalyzer.check_cases (frame : FrameAnalyzer) (limit : Nat) :
    (FrameType.ofByte frame.typeByte = none ∨ frame.payloadSize > limit) ∧
        (∃ code what, frame.check limit = .error (.systemError code what)) ∨
      ¬ (FrameType.ofByte frame.typeByte = none ∨ frame.payloadSize > limit) ∧
        frame.check limit = .ok () := by
  unfold check
  cases FrameType.ofByte frame.typeByte with
  | none => exact .inl ⟨.inl rfl, _, _, rfl⟩
  | some type =>
      by_cases large : frame.payloadSize > limit
      · exact .inl ⟨.inr large, _, _, if_pos large⟩
      · refine .inr ⟨?_, if_neg large⟩
        rintro (unknown | exceeds)
        · cases unknown
        · exact large exceeds

namespace Reader

variable {Client : Type} {handlers : Handlers Client}

/-- The handlers do not throw, and `log` records what they are given; the largest
payload the client accepts follows from it. -/
structure Logs (handlers : Handlers Client) (log : Client → List Dispatched)
    (limit : List Dispatched → Nat) : Prop where
  limit : ∀ client, handlers.maxFrameSize client = limit (log client)
  frame : ∀ client span, (handlers.onReceiveFrame client span).2 = none ∧
    log (handlers.onReceiveFrame client span).1 = log client ++ [.frame span.bytes]
  data : ∀ client buffer, (handlers.onReceiveDataFrame client buffer).2 = none ∧
    log (handlers.onReceiveDataFrame client buffer).1 = log client ++ [.data buffer.data]
  write : ∀ client, log (handlers.initWrite client) = log client
  disconnect : ∀ client code, log (handlers.initiateDisconnect client code) = log client

variable {log : Client → List Dispatched} {limit : List Dispatched → Nat}

/-- After a stream was read from where `start` had been dispatched: all its complete
frames are in the log, and the buffer holds the rest, with room for more. -/
structure Settled (log : Client → List Dispatched) (limit : List Dispatched → Nat)
    (start : List Dispatched) (stream : Bytes) (client : Client) (buffer : Buffer) : Prop where
  dispatched : log client = ((Wire.frames limit).cut start stream).state
  kept : buffer.data = ((Wire.frames limit).cut start stream).rest
  large : 64 ≤ buffer.maxSize
  room : (Wire.frames limit).classify (log client) buffer.data ≠ .reject → 0 < buffer.prepareSize

/-- The variables of the loop agree. -/
structure Tracks (state : ReadState Client) : Prop where
  incoming : state.incoming.bytes = state.ioBuff.data.drop state.usedBytes
  used : state.usedBytes ≤ state.ioBuff.data.length
  large : 64 ≤ state.ioBuff.maxSize

/-- The buffer that is returned holds what is left, with room for more. -/
theorem returned_spec {state : ReadState Client} (tracks : Tracks state) :
    (returned state).data = state.incoming.bytes ∧ 64 ≤ (returned state).maxSize ∧
      (state.incoming.size < state.ioBuff.maxSize → 0 < (returned state).prepareSize) := by
  have length := Span.length_bytes state.incoming
  unfold returned
  split
  · rename_i empty
    refine ⟨?_, Nat.le_refl 64, fun _ => (by decide : 0 < 64)⟩
    rw [Buffer.create_data, eq_comm, ← List.length_eq_zero_iff, length, empty]
  · split
    · rw [Buffer.prepareSize, Buffer.consume_data, ← tracks.incoming, length]
      exact ⟨rfl, tracks.large, Nat.sub_pos_of_lt⟩
    · rename_i unused
      have same := tracks.incoming
      rw [Decidable.not_not.mp unused, List.drop_zero] at same
      rw [Buffer.prepareSize, ← same, length]
      exact ⟨rfl, tracks.large, Nat.sub_pos_of_lt⟩

/-- Nothing more can be dispatched. -/
theorem Settled.stay (log : Client → List Dispatched) (limit : List Dispatched → Nat)
    {state : ReadState Client} (tracks : Tracks state)
    (stop : ∀ item count, (Wire.frames limit).classify (log state.client) state.incoming.bytes ≠
      .take item count)
    (room : (Wire.frames limit).classify (log state.client) state.incoming.bytes ≠ .reject →
      state.incoming.size < state.ioBuff.maxSize) :
    Settled log limit (log state.client) state.incoming.bytes state.client (returned state) := by
  obtain ⟨data, large, free⟩ := returned_spec tracks
  have cut := Framing.Format.cut_stop stop
  refine ⟨by rw [cut], by rw [cut, data], large, fun accepted => free (room ?_)⟩
  rwa [data] at accepted

/-- A frame is dispatched, and then the stream behind it is read. -/
theorem Settled.take {start : List Dispatched} {stream : Bytes} {item : Dispatched} {count : Nat}
    {client : Client} {buffer : Buffer}
    (verdict : (Wire.frames limit).classify start stream = .take item count)
    (later : Settled log limit (start ++ [item]) (stream.drop count) client buffer) :
    Settled log limit start stream client buffer := by
  have cut := Framing.Format.cut_take verdict
  refine ⟨?_, ?_, later.large, later.room⟩
  · rw [cut]
    exact later.dispatched
  · rw [cut]
    exact later.kept

/-- The buffer is enlarged for an incomplete frame, or large enough. -/
theorem reserve_spec {state : ReadState Client} (tracks : Tracks state) {frame : FrameAnalyzer}
    (content : frame.buffer.bytes = state.incoming.bytes)
    (incomplete : state.incoming.size < frame.size) :
    (reserve state frame).client = state.client ∧
      (reserve state frame).incoming = state.incoming ∧
      Tracks (reserve state frame) ∧
      state.incoming.size < (reserve state frame).ioBuff.maxSize := by
  have length := Span.length_bytes state.incoming
  have fits := state.ioBuff.fits
  have large := tracks.large
  unfold reserve
  split
  · rename_i small
    have stored : ((Buffer.create frame.size).commit frame.buffer.bytes).data =
        state.incoming.bytes := by
      rw [Buffer.commit_data, Buffer.create_data, content, List.nil_append]
      rw [content, length]
      exact Nat.le_of_lt incomplete
    unfold Buffer.prepareSize at small
    refine ⟨rfl, rfl, ⟨?_, Nat.zero_le _, ?_⟩, incomplete⟩
    · simp only [stored, List.drop_zero]
    · simp only [Buffer.commit_maxSize, Buffer.create_maxSize]
      omega
  · rename_i large
    unfold Buffer.prepareSize at large
    refine ⟨rfl, rfl, tracks, ?_⟩
    omega

/-- Taking bytes from the front keeps track of the rest. -/
theorem advance_tracks {state : ReadState Client} (tracks : Tracks state) (client : Client)
    {count : Nat} (inside : count ≤ state.incoming.size) : Tracks (advance state client count) := by
  have length := Span.length_bytes state.incoming
  rw [tracks.incoming, List.length_drop] at length
  have used := tracks.used
  refine ⟨?_, ?_, tracks.large⟩
  · simp only [advance, Span.bytes_subspan, tracks.incoming, List.drop_drop]
  · simp only [advance]
    omega

/-- A turn of the loop with a complete frame dispatches it. Then the buffer has been
moved into the handler, or the loop goes on behind the frame. -/
theorem readLoop_complete (logs : Logs handlers log limit) (fuel : Nat) {state : ReadState Client}
    (tracks : Tracks state) {frame : FrameAnalyzer}
    (long : ¬ state.incoming.size < headerSize)
    (analyzed : FrameAnalyzer.fromBuffer state.incoming = .ok frame)
    (passed : frame.check (handlers.maxFrameSize state.client) = .ok ())
    (complete : frame.isComplete = true)
    (content : frame.buffer.bytes = state.incoming.bytes.take frame.buffer.size)
    (type : frame.typeByte = Wire.typeByte frame.buffer.bytes) :
    ∃ client, log client = log state.client ++ [Wire.dispatch frame.buffer.bytes] ∧
      (frame.buffer.size = state.incoming.size ∧
          readLoop handlers (fuel + 1) state =
            (⟨client, .movedFrom, state.incoming.first 0, 0⟩, none) ∨
        readLoop handlers (fuel + 1) state =
          readLoop handlers fuel (advance state client frame.buffer.size)) := by
  have length := Span.length_bytes state.incoming
  rw [readLoop, if_neg long, analyzed]
  simp only [passed, complete, ↓reduceIte]
  by_cases data : frame.typeByte = FrameType.data.value
  · rw [Wire.dispatch, if_pos (type ▸ data), if_pos data]
    by_cases moved : state.usedBytes = 0 ∧ frame.buffer.size = state.ioBuff.data.length
    · obtain ⟨unused, whole⟩ := moved
      have incoming := tracks.incoming
      rw [unused, List.drop_zero] at incoming
      rw [if_pos ⟨unused, whole⟩]
      obtain ⟨quiet, logged⟩ := logs.data state.client state.ioBuff
      rcases result : handlers.onReceiveDataFrame state.client state.ioBuff with ⟨client, failure⟩
      rw [result] at quiet logged
      cases quiet
      refine ⟨client, ?_, .inl ⟨?_, rfl⟩⟩
      · rw [logged, content, incoming, whole, List.take_length]
      · rw [whole, ← incoming, length]
    · rw [if_neg moved]
      have stored : ((Buffer.create frame.buffer.size).commit frame.buffer.bytes).data =
          frame.buffer.bytes := by
        rw [Buffer.commit_data, Buffer.create_data, List.nil_append]
        rw [Span.length_bytes]
        exact Nat.le_refl _
      obtain ⟨quiet, logged⟩ := logs.data state.client
        ((Buffer.create frame.buffer.size).commit frame.buffer.bytes)
      rcases result : handlers.onReceiveDataFrame state.client
        ((Buffer.create frame.buffer.size).commit frame.buffer.bytes) with ⟨client, failure⟩
      rw [result] at quiet logged
      cases quiet
      exact ⟨client, stored ▸ logged, .inr rfl⟩
  · rw [Wire.dispatch, if_neg (type ▸ data), if_neg data]
    obtain ⟨quiet, logged⟩ := logs.frame state.client frame.buffer
    rcases result : handlers.onReceiveFrame state.client frame.buffer with ⟨client, failure⟩
    rw [result] at quiet logged
    cases quiet
    exact ⟨client, logged, .inr rfl⟩

/-- **The loop dispatches all complete frames.** What it leaves is the rest of the
buffer; if that is not rejected, there is room for more bytes. -/
theorem readLoop_settled (logs : Logs handlers log limit) :
    ∀ (fuel : Nat) (state : ReadState Client), Tracks state → state.incoming.size ≤ fuel →
      (readLoop handlers fuel state).2 ≠ some .undefinedBehaviour ∧
        Settled log limit (log state.client) state.incoming.bytes
          (readLoop handlers fuel state).1.client (returned (readLoop handlers fuel state).1) := by
  have header : headerSize = 9 := rfl
  have short : ∀ state : ReadState Client, Tracks state → state.incoming.size < headerSize →
      Settled log limit (log state.client) state.incoming.bytes state.client (returned state) := by
    intro state tracks few
    have verdict : (Wire.frames limit).classify (log state.client) state.incoming.bytes = .wait :=
      if_pos ((Span.length_bytes state.incoming).symm ▸ few)
    refine Settled.stay log limit tracks (fun item count same => ?_) fun _ => ?_
    · rw [verdict] at same
      cases same
    · exact Nat.lt_of_lt_of_le few (Nat.le_trans (by decide) tracks.large)
  intro fuel
  induction fuel with
  | zero =>
      intro state tracks enough
      exact ⟨(Option.some_ne_none _).symm, short state tracks (by omega)⟩
  | succ fuel ih =>
      intro state tracks enough
      have length := Span.length_bytes state.incoming
      by_cases few : state.incoming.size < headerSize
      · rw [readLoop, if_pos few]
        exact ⟨(Option.some_ne_none _).symm, short state tracks few⟩
      obtain ⟨frame, analyzed, payload, type, content, size⟩ :=
        FrameAnalyzer.fromBuffer_spec state.incoming (Nat.not_lt.mp few)
      have classified : (Wire.frames limit).classify (log state.client) state.incoming.bytes =
          if FrameType.ofByte frame.typeByte = none ∨
              frame.payloadSize > handlers.maxFrameSize state.client then .reject
          else if state.incoming.size < frame.size then .wait
          else .take (Wire.dispatch frame.buffer.bytes) frame.size := by
        rw [logs.limit, type, FrameAnalyzer.size, payload, content, ← length]
        exact if_neg (length ▸ few)
      rw [← payload, ← FrameAnalyzer.size] at content size
      rcases frame.check_cases (handlers.maxFrameSize state.client) with
        ⟨rejected, code, what, thrown⟩ | ⟨accepted, passed⟩
      · -- the rejected frame stays at the front of the buffer
        rw [if_pos rejected] at classified
        simp only [readLoop, few, ↓reduceIte, analyzed, thrown]
        refine ⟨fun same => (by cases same), Settled.stay log limit tracks ?_ fun kept => ?_⟩
        · rw [classified]
          exact fun _ _ same => (by cases same)
        · exact absurd classified kept
      · rw [if_neg accepted] at classified
        by_cases partly : state.incoming.size < frame.size
        · have whole : frame.buffer.bytes = state.incoming.bytes := by
            rw [content, List.take_of_length_le (length ▸ Nat.le_of_lt partly)]
          have incomplete : frame.isComplete = false := by
            rw [FrameAnalyzer.isComplete, decide_eq_false_iff_not]
            omega
          obtain ⟨client, incoming, kept, room⟩ := reserve_spec tracks whole partly
          rw [if_pos partly] at classified
          simp only [readLoop, few, ↓reduceIte, analyzed, passed, incomplete, Bool.false_eq_true]
          refine ⟨(Option.some_ne_none _).symm, ?_⟩
          have stays := Settled.stay log limit kept
          rw [client, incoming, classified] at stays
          rw [client]
          exact stays (fun _ _ same => (by cases same)) fun _ => room
        · have whole : frame.buffer.size = frame.size := by omega
          have complete : frame.isComplete = true := by
            rw [FrameAnalyzer.isComplete, decide_eq_true_eq, whole]
          have same : frame.typeByte = Wire.typeByte frame.buffer.bytes := by
            have long : headerSize ≤ frame.buffer.bytes.length :=
              (Span.length_bytes _).symm ▸ frame.long
            rw [type, ← (Wire.header_append long (state.incoming.bytes.drop frame.size)).2, content,
              List.take_append_drop]
          rw [if_neg partly, ← whole] at classified
          rw [← whole] at content
          obtain ⟨client, logged, ⟨all, moved⟩ | goes⟩ :=
            readLoop_complete logs fuel tracks few analyzed passed complete content same
          · rw [moved]
            refine ⟨(Option.some_ne_none _).symm, Settled.take classified ?_⟩
            rw [List.drop_eq_nil_of_le (by omega), ← logged]
            exact short ⟨client, .create 64, state.incoming.first 0, 0⟩
              ⟨rfl, Nat.le_refl _, Nat.le_refl _⟩ (Nat.zero_lt_succ 8)
          · rw [goes]
            have inside : frame.buffer.size ≤ state.incoming.size := by omega
            obtain ⟨defined, later⟩ := ih _ (advance_tracks tracks client inside) (by
              have long := frame.long
              simp only [advance, Span.subspan]
              omega)
            refine ⟨defined, Settled.take classified ?_⟩
            rw [← logged, ← Span.bytes_subspan]
            exact later

/-- A call of `on_read` returns, and dispatches all complete frames of its buffer. -/
theorem onRead_settled (logs : Logs handlers log limit) (around : Int → UInt8) (client : Client)
    (buffer : Buffer) (large : 64 ≤ buffer.maxSize) :
    ∃ after kept, onRead handlers around client buffer = .ok (after, kept) ∧
      Settled log limit (log client) buffer.data after kept := by
  have content := Span.bytes_ofBytes around buffer.data
  by_cases few : buffer.data.length < headerSize
  · have verdict : (Wire.frames limit).classify (log client) buffer.data = .wait := if_pos few
    have cut : (Wire.frames limit).cut (log client) buffer.data = ⟨[], log client, buffer.data⟩ :=
      Framing.Format.cut_stop (by rw [verdict]; exact fun _ _ same => (by cases same))
    refine ⟨client, buffer, if_pos few, by rw [cut], by rw [cut], large, fun _ => ?_⟩
    exact Nat.sub_pos_of_lt (Nat.lt_of_lt_of_le few (Nat.le_trans (by decide) large))
  · have tracks : Tracks (⟨client, buffer, Span.ofBytes around buffer.data, 0⟩ :
        ReadState Client) := ⟨content, Nat.zero_le _, large⟩
    obtain ⟨defined, settled⟩ := readLoop_settled logs buffer.data.length _ tracks (Nat.le_refl _)
    rw [onRead, if_neg few]
    rcases loop : readLoop handlers buffer.data.length
      ⟨client, buffer, Span.ofBytes around buffer.data, 0⟩ with ⟨state, failure⟩
    rw [loop] at defined settled
    simp only [content] at settled
    have write := logs.write
    cases failure with
    | none =>
        refine ⟨_, _, rfl, ?_, settled.kept, settled.large, ?_⟩
        · rw [write, settled.dispatched]
        · rw [write]
          exact settled.room
    | some failure =>
        have undisturbed : log (handlers.initWrite (handlers.initiateDisconnect state.client
            (disconnectCode failure))) = log state.client := by
          rw [write, logs.disconnect]
        cases failure with
        | undefinedBehaviour => exact absurd rfl defined
        | _ =>
            refine ⟨_, _, rfl, ?_, settled.kept, settled.large, ?_⟩
            · rw [undisturbed, settled.dispatched]
            · rw [undisturbed]
              exact settled.room

/-- The reads of a run: each delivers at least one byte and at most what the buffer
of its turn has room for. -/
def Fits (handlers : Handlers Client) (around : Int → UInt8) :
    Client → Buffer → List Bytes → Prop
  | _, _, [] => True
  | client, buffer, chunk :: chunks =>
      1 ≤ chunk.length ∧ chunk.length ≤ buffer.prepareSize ∧
        match onRead handlers around client (buffer.commit chunk) with
        | .ok (client, buffer) => Fits handlers around client buffer chunks
        | .error _ => True

instance decidableFits (handlers : Handlers Client) (around : Int → UInt8) :
    ∀ client buffer chunks, Decidable (Fits handlers around client buffer chunks)
  | _, _, [] => isTrue trivial
  | client, buffer, chunk :: chunks =>
      have : Decidable (match onRead handlers around client (buffer.commit chunk) with
          | .ok (client, buffer) => Fits handlers around client buffer chunks
          | .error _ => True) :=
        match onRead handlers around client (buffer.commit chunk) with
        | .ok (client, buffer) => decidableFits handlers around client buffer chunks
        | .error _ => isTrue trivial
      inferInstanceAs (Decidable (_ ∧ _ ∧ _))

/-- Reads go on from where the reads before have settled. -/
theorem readAll_settled (logs : Logs handlers log limit) (around : Int → UInt8)
    (start : List Dispatched) (chunks : List Bytes) :
    ∀ (stream : Bytes) (client : Client) (buffer : Buffer),
      Settled log limit start stream client buffer → Fits handlers around client buffer chunks →
      ∃ after kept, readAll handlers around client buffer chunks = .ok (after, kept) ∧
        Settled log limit start (stream ++ chunks.flatten) after kept := by
  induction chunks with
  | nil =>
      intro stream client buffer settled _
      refine ⟨client, buffer, rfl, ?_⟩
      rwa [List.flatten_nil, List.append_nil]
  | cons chunk chunks ih =>
      intro stream client buffer settled ⟨_, room, later⟩
      have data := Buffer.commit_data room
      obtain ⟨next, kept, read, reached⟩ := onRead_settled logs around client (buffer.commit chunk)
        settled.large
      rw [data, settled.dispatched, settled.kept] at reached
      have cut := @Framing.Format.cut_append _ _ _ (Wire.frames limit) start stream chunk
      have further : Settled log limit start (stream ++ chunk) next kept := by
        refine ⟨?_, ?_, reached.large, reached.room⟩
        · rw [cut]
          exact reached.dispatched
        · rw [cut]
          exact reached.kept
      rw [read] at later
      obtain ⟨after, last, rest, final⟩ := ih _ next kept further later
      refine ⟨after, last, ?_, ?_⟩
      · rw [readAll, read]
        exact rest
      · rwa [List.flatten_cons, ← List.append_assoc]

/-- **Read segmentation does not matter.** However the stream is split into reads,
the frames dispatched are those obtained by cutting the whole stream at frame
boundaries, up to the first frame that is rejected. No byte is lost or dispatched
twice, and while no frame has been rejected there is room for another read. -/
theorem readAll_frames (logs : Logs handlers log limit) (around : Int → UInt8) (client : Client)
    (chunks : List Bytes) (fits : Fits handlers around client (.create 64) chunks) :
    ∃ after buffer, readAll handlers around client (.create 64) chunks = .ok (after, buffer) ∧
      log after = log client ++ ((Wire.frames limit).cut (log client) chunks.flatten).items ∧
      buffer.data = ((Wire.frames limit).cut (log client) chunks.flatten).rest ∧
      (((Wire.frames limit).cut (log client) chunks.flatten).items.flatMap Dispatched.bytes) ++
        buffer.data = chunks.flatten ∧
      ((Wire.frames limit).classify (log after) buffer.data ≠ .reject →
        0 < buffer.prepareSize) := by
  have start : Settled log limit (log client) [] client (.create 64) :=
    ⟨rfl, rfl, Nat.le_refl _, fun _ => Nat.zero_lt_succ 63⟩
  obtain ⟨after, buffer, run, settled⟩ :=
    readAll_settled logs around (log client) chunks [] client (.create 64) start fits
  rw [List.nil_append] at settled
  refine ⟨after, buffer, run, ?_, settled.kept, ?_, settled.room⟩
  · rw [settled.dispatched, Wire.cut_state]
  · rw [settled.kept, Wire.cut_bytes]

/-- Handlers that only record what they are given. -/
def recording (limit : Nat) : Handlers (List Dispatched) where
  maxFrameSize _ := limit
  onReceiveFrame log span := (log ++ [.frame span.bytes], none)
  onReceiveDataFrame log buffer := (log ++ [.data buffer.data], none)
  initiateDisconnect log _ := log
  initWrite log := log

private theorem recording_logs (limit : Nat) : Logs (recording limit) id fun _ => limit :=
  ⟨fun _ => rfl, fun _ _ => ⟨rfl, rfl⟩, fun _ _ => ⟨rfl, rfl⟩, fun _ => rfl, fun _ _ => rfl⟩

/-- A SETTINGS frame and a DATA frame with a payload of three bytes, in three reads. -/
def threeReads : List Bytes :=
  [[0, 0, 0, 4, 0], [0, 0, 0, 0, 0, 0, 3, 0, 1, 0, 0], [0, 1, 10, 20, 30]]

/-- Both frames are read, though the reads cut through their headers. -/
theorem readAll_frames_three_reads :
    Fits (recording 16384) (fun _ => 0) [] (.create 64) threeReads ∧
      ∃ after buffer, readAll (recording 16384) (fun _ => 0) [] (.create 64) threeReads =
          .ok (after, buffer) ∧
        after = [.frame [0, 0, 0, 4, 0, 0, 0, 0, 0], .data [0, 0, 3, 0, 1, 0, 0, 0, 1, 10, 20, 30]] ∧
        buffer.data = [] ∧ 0 < buffer.prepareSize := by
  have fits : Fits (recording 16384) (fun _ => 0) [] (.create 64) threeReads := by decide +kernel
  have cut : ((Wire.frames fun _ => 16384).cut [] threeReads.flatten).items =
      [.frame [0, 0, 0, 4, 0, 0, 0, 0, 0], .data [0, 0, 3, 0, 1, 0, 0, 0, 1, 10, 20, 30]] := by
    decide +kernel
  have rest : ((Wire.frames fun _ => 16384).cut [] threeReads.flatten).rest = [] := by
    decide +kernel
  obtain ⟨after, buffer, run, dispatched, kept, _, room⟩ :=
    readAll_frames (recording_logs 16384) (fun _ => 0) [] threeReads fits
  rw [id, id, cut, List.nil_append] at dispatched
  rw [id, rest] at kept
  refine ⟨fits, after, buffer, run, dispatched, kept, room ?_⟩
  rw [kept, dispatched]
  decide

end Reader

end H2pp.Http2

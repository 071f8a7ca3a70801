import H2pp.Hpack.Decoder
import H2pp.Http2.Reader
import H2pp.Http2.SettingsManager
import H2pp.Http2.StreamRegistry

/-! # The client

`base_client.cpp`: the HTTP/2 client without its transport. The user opens streams,
the transport delivers frames and asks for data to send. Frames of the connection are
queued as commands, which are sent before anything of a stream.
-/

namespace H2pp.Http2

open Utils Hpack

/-- `base_client` and its `PrivateClient`. `pingHandler` tells whether a handler
waits for a PING to come back. -/
structure Client where
  clientIdOrder : Nat
  decoder : Decoder
  encoder : Encoder
  settings : SettingsManager
  registry : StreamRegistry
  localWindow : DummyWindow
  txCommandQueue : List Bytes
  serverWindowSize : Nat
  pingHandler : Bool
  isConnected : Bool
  startDisconnect : Bool

/-- Something the client sends: a command, or a frame of a stream. -/
inductive Tx
  | command (bytes : Bytes)
  | frame (ptr : Nat) (frame : OutFrame)
  deriving DecidableEq, Repr

namespace Client

/-- `INITIAL_WINDOW_SIZE`. -/
def initialWindowSize : Nat := 65535

/-- `base_client(io)`. -/
def create : Client where
  clientIdOrder := 1
  decoder := .create
  encoder := .create
  settings := .create
  registry := .create
  localWindow := .create initialWindowSize (initialWindowSize / 4)
  txCommandQueue := []
  serverWindowSize := initialWindowSize
  pingHandler := false
  isConnected := false
  startDisconnect := false

/-- `send_command(buff)`. -/
def sendCommand (client : Client) (buff : Bytes) : Client :=
  { client with txCommandQueue := client.txCommandQueue ++ [buff] }

/-- `write_initial_frames()`. -/
def writeInitialFrames (client : Client) : Client :=
  client.sendCommand (ascii "PRI * HTTP/2.0\r\n\r\nSM\r\n\r\n")

/-- The handler that `initiate_sync_settings` passes to the settings manager. -/
def settingsDone (client : Client) : Option ErrorCode → Client
  | some .success =>
      let windowSize := client.settings.localSettings.initialWindowSize *
        client.settings.localSettings.maxConcurrentStreams % 2 ^ 32
      let windowIncrement := UInt32.ofNat windowSize - client.localWindow.size
      { client with localWindow := .create windowSize (windowSize / 2) }.sendCommand
        (FrameBuilder.updateWindow windowIncrement.toNat 0).bytes
  | _ => client

/-- `initiate_sync_settings(remote_sync, handler)`. -/
def initiateSyncSettings (client : Client) (remoteSync : Bool) : Except Failure Client := do
  let (settings, frame) ← client.settings.initiateSyncSettings {} remoteSync
  .ok ({ client with settings }.sendCommand frame.bytes)

/-- `initiate_disconnect(ec, handler)`. -/
def initiateDisconnect (client : Client) (ec : ErrorCode) : Client :=
  if client.startDisconnect then client
  else
    let (settings, called) := client.settings.cancel ec
    let client := { client with startDisconnect := true, settings }
    if called.isSome then client.settingsDone called
    else client.sendCommand (FrameBuilder.goaway 0 1 []).bytes

/-- `initiate_ping(handler)`, with what the memory of the new frame holds. -/
def initiatePing (client : Client) (memory : Bytes) : Except Failure Client :=
  if !client.isConnected then
    .error (.systemError (.asio .notConnected) "Client is not connected")
  else if client.pingHandler then
    .error (.systemError (.asio .inProgress) "Client is not connected")
  else .ok ({ client with pingHandler := true }.sendCommand (FrameBuilder.ping memory).bytes)

/-- `get_next_stream_id()`. -/
def nextStreamId (client : Client) : Nat :=
  nativeToBig32 ((client.clientIdOrder * 2 + 2 ^ 32 - 1) % 2 ^ 32)

/-- `initiate_send(rq, handler)`. -/
def initiateSend (client : Client) (request : Request) : Except Failure Client :=
  if !client.isConnected then
    .error (.systemError (.asio .notConnected) "Client is not connected")
  else
    let id := client.nextStreamId
    let stream := Stream.create id client.settings.remoteSettings.initialWindowSize
      client.settings.localSettings.initialWindowSize request
    .ok { client with
      clientIdOrder := (client.clientIdOrder + 1) % 2 ^ 32
      registry := client.registry.addStream id stream }

/-- `cleanup_after_disconnect(ec)`. -/
def cleanupAfterDisconnect (client : Client) (ec : ErrorCode) : Client :=
  { client with registry := client.registry.reset ec }

/-! ## Sending -/

/-- The command frames that fit in the window, those that are left, and the window
after them. -/
def takeCommands : List Bytes → Nat → List Bytes × List Bytes × Nat
  | [], window => ([], [], window)
  | command :: commands, window =>
      if command.length > window then ([], command :: commands, window)
      else
        let (sent, left, window) := takeCommands commands (window - command.length)
        (command :: sent, left, window)

/-- `get_tx_data()`. -/
def getTxData (lowerBound : LowerBound) (client : Client) : Except Failure (Client × List Tx) :=
  let (sent, left, window) := takeCommands client.txCommandQueue client.serverWindowSize
  let client := { client with txCommandQueue := left, serverWindowSize := window }
  let out := sent.map Tx.command
  if left ≠ [] then .ok (client, out)
  else
    let limit := min window client.settings.localSettings.maxFrameSize
    if limit ≥ 2 * headerSize then do
      let (registry, encoder, frames, used) ← client.registry.getData lowerBound client.encoder limit
      .ok ({ client with registry, encoder, serverWindowSize := sizeSub window used },
        out ++ frames.map fun entry => .frame entry.1 entry.2)
    else .ok (client, out)

/-! ## Receiving -/

/-- The connection window after `size` received bytes, with its update. -/
def countReceived (client : Client) (size : Nat) : Client :=
  let (updWindow, localWindow) := (client.localWindow.dec size).update 0
  let client := { client with localWindow }
  match updWindow with
  | some frame => client.sendCommand frame.bytes
  | none => client

/-- `invoke_for_stream(stream_id, method, args)`. -/
def invokeForStream (client : Client) (streamId : Nat) (received : Stream.Received) :
    Client × Option Failure :=
  match client.registry.invokeForStream streamId received with
  | .error failure => (client, some failure)
  | .ok registry => ({ client with registry }, none)

/-- The decoding of a header block. What the decoder throws becomes a
COMPRESSION_ERROR. -/
def decodeBlock (client : Client) (block : Span) : Client × Except Failure (List HeaderField) :=
  let (decoder, result) := client.decoder.decode block
  match result with
  | .ok fields => ({ client with decoder }, .ok fields)
  | .error .undefinedBehaviour => ({ client with decoder }, .error .undefinedBehaviour)
  | .error failure =>
      ({ client with decoder }, .error (.systemError .compressionError failure.what))

/-- `on_receive_data(buff)`. -/
def onReceiveData (client : Client) (buff : Span) : Client × Option Failure :=
  match FrameAnalyzer.fromBuffer buff >>= fun analyzer => analyzer.getFrame .data with
  | .error failure => (client, some failure)
  | .ok frame => client.invokeForStream frame.streamId (.data buff frame)

/-- What the two handlers of header blocks share: the fields that were decoded are
given to the stream. -/
def onReceiveBlock (client : Client) (block : Span) (streamId : Nat)
    (received : List HeaderField → Stream.Received) : Client × Option Failure :=
  match client.decodeBlock block with
  | (client, .error failure) => (client, some failure)
  | (client, .ok fields) => client.invokeForStream streamId (received fields)

/-- `on_receive_headers(data)`. -/
def onReceiveHeaders (client : Client) (frame : FrameAnalyzer) (size : Nat) :
    Client × Option Failure :=
  client.onReceiveBlock (frame.span frame.headerBlock) frame.streamId fun fields =>
    .headers fields frame.flags size

/-- `on_receive_continuation(data)`. -/
def onReceiveContinuation (client : Client) (frame : FrameAnalyzer) (size : Nat) :
    Client × Option Failure :=
  client.onReceiveBlock (frame.span frame.continuationBlock) frame.streamId fun fields =>
    .continuation fields frame.flags size

/-- `on_receive_reset(data)`. -/
def onReceiveReset (client : Client) (frame : FrameAnalyzer) : Client × Option Failure :=
  client.invokeForStream frame.streamId (.reset (readNative32 frame.buffer headerSize))

/-- `on_receive_settings(data)`. -/
def onReceiveSettings (client : Client) (frame : FrameAnalyzer) : Client × Option Failure :=
  let (settings, ack, called) := client.settings.onSettingsFrame frame
  let client := { client with settings }.settingsDone called
  match ack with
  | some frame => (client.sendCommand frame.bytes, none)
  | none => (client, none)

/-- `on_receive_push(data)`. -/
def onReceivePush (client : Client) : Client × Option Failure :=
  (client.sendCommand (FrameBuilder.goaway (nativeToBig32 1) 1 []).bytes, none)

/-- `on_receive_ping(data)`. -/
def onReceivePing (client : Client) (frame : FrameAnalyzer) (data : Span) :
    Client × Option Failure :=
  if frame.flags &&& Flags.ack ≠ 0 then ({ client with pingHandler := false }, none)
  else (client.sendCommand (data.bytes.modify 4 (· ||| Flags.ack)), none)

/-- `on_receive_window_update(data)`. -/
def onReceiveWindowUpdate (client : Client) (frame : FrameAnalyzer) : Client × Option Failure :=
  let increment := readBig32 frame.buffer headerSize
  if frame.streamId = 0 then
    ({ client with serverWindowSize := client.serverWindowSize + increment }, none)
  else client.invokeForStream frame.streamId (.windowUpdate increment)

/-- `frame_handlers`. -/
def frameHandler (client : Client) (frame : FrameAnalyzer) (data : Span) :
    FrameType → Client × Option Failure
  | .data => (client, some (.systemError .internalError "Unreachable code"))
  | .headers => client.onReceiveHeaders frame data.size
  | .priority => (client, none)
  | .rstStream => client.onReceiveReset frame
  | .settings => client.onReceiveSettings frame
  | .pushPromise => client.onReceivePush
  | .ping => client.onReceivePing frame data
  | .goaway => (client, none)
  | .windowUpdate => client.onReceiveWindowUpdate frame
  | .continuation => client.onReceiveContinuation frame data.size

/-- `on_receive_frame(data)`. A type without a handler is read behind the table. -/
def onReceiveFrame (client : Client) (data : Span) : Client × Option Failure :=
  let client := client.countReceived data.size
  match FrameAnalyzer.fromBuffer data with
  | .error failure => (client, some failure)
  | .ok frame =>
      match FrameType.ofByte frame.typeByte with
      | none => (client, some .undefinedBehaviour)
      | some type => client.frameHandler frame data type

/-- `on_receive_data_frame(buff)`. -/
def onReceiveDataFrame (client : Client) (buff : Span) : Client × Option Failure :=
  (client.countReceived buff.size).onReceiveData buff

/-! ## Runs -/

/-- An event of the client. The transport calls it for frames it has read and when it
can write, timers run out, and the rest is up to the user. -/
inductive Event
  | connected
  | command (bytes : Bytes)
  | syncSettings (remoteSync : Bool)
  | settingsTimeout
  | ping (memory : Bytes)
  | send (request : Request)
  | streamTimeout (ptr : Nat)
  | receiveFrame (data : Span)
  | receiveDataFrame (buff : Span)
  | getTxData
  | disconnect (ec : ErrorCode)
  | cleanup (ec : ErrorCode)

/-- A call of the user; what it throws does not change the client. -/
def called (client : Client) : Except Failure Client → Client
  | .ok next => next
  | .error _ => client

/-- A call of `on_read`, which catches what the handler of a frame throws. -/
def caught : Client × Option Failure → Except Failure Client
  | (client, none) => .ok client
  | (_, some .undefinedBehaviour) => .error .undefinedBehaviour
  | (client, some failure) => .ok (client.initiateDisconnect (Reader.disconnectCode failure))

/-- A step of the client that sends nothing. -/
def react (client : Client) : Event → Except Failure Client
  | .connected => .ok { client with isConnected := true }
  | .command bytes => .ok (client.sendCommand bytes)
  | .syncSettings remoteSync => .ok (client.called (client.initiateSyncSettings remoteSync))
  | .settingsTimeout =>
      let (settings, called) := client.settings.onTimeout
      .ok ({ client with settings }.settingsDone called)
  | .ping memory => .ok (client.called (client.initiatePing memory))
  | .send request => .ok (client.called (client.initiateSend request))
  | .streamTimeout ptr => .ok { client with registry := client.registry.onTimeout ptr }
  | .receiveFrame data => caught (client.onReceiveFrame data)
  | .receiveDataFrame buff => caught (client.onReceiveDataFrame buff)
  | .getTxData => .ok client
  | .disconnect ec => .ok (client.initiateDisconnect ec)
  | .cleanup ec => .ok (client.cleanupAfterDisconnect ec)

/-- The client with what it sends. -/
def machine (lowerBound : LowerBound) : Machine Client Event Tx Failure where
  step client event :=
    match event with
    | .getTxData => client.getTxData lowerBound
    | event => do
        let next ← client.react event
        .ok (next, [])

/-! ## What happens to the streams -/

/-- What a frame that is not a DATA frame gives to `invoke_for_stream`, and for which
stream. -/
def frameDelivery (client : Client) (frame : FrameAnalyzer) (size : Nat) :
    FrameType → Option (Nat × Stream.Received)
  | .headers => (client.decoder.decode (frame.span frame.headerBlock)).2.toOption.map
      fun fields => (frame.streamId, .headers fields frame.flags size)
  | .rstStream => some (frame.streamId, .reset (readNative32 frame.buffer headerSize))
  | .windowUpdate =>
      if frame.streamId = 0 then none
      else some (frame.streamId, .windowUpdate (readBig32 frame.buffer headerSize))
  | .continuation => (client.decoder.decode (frame.span frame.continuationBlock)).2.toOption.map
      fun fields => (frame.streamId, .continuation fields frame.flags size)
  | _ => none

/-- What an event gives to `invoke_for_stream`, and for which stream. -/
def delivery (client : Client) : Event → Option (Nat × Stream.Received)
  | .receiveFrame data =>
      match FrameAnalyzer.fromBuffer data with
      | .error _ => none
      | .ok frame => FrameType.ofByte frame.typeByte >>= client.frameDelivery frame data.size
  | .receiveDataFrame buff =>
      match FrameAnalyzer.fromBuffer buff >>= fun analyzer => analyzer.getFrame .data with
      | .error _ => none
      | .ok frame => some (frame.streamId, .data buff frame)
  | _ => none

/-- The registry after an event other than sending. -/
def registryAfter (client : Client) (event : Event) : Except Failure StreamRegistry :=
  match event with
  | .send request =>
      .ok (if client.isConnected then
        client.registry.addStream client.nextStreamId (Stream.create client.nextStreamId
          client.settings.remoteSettings.initialWindowSize
          client.settings.localSettings.initialWindowSize request)
      else client.registry)
  | .streamTimeout ptr => .ok (client.registry.onTimeout ptr)
  | .cleanup ec => .ok (client.registry.reset ec)
  | event => client.registry.deliver (client.delivery event)

/-- The handler of the settings leaves the streams alone. -/
@[simp] theorem settingsDone_registry (client : Client) (ec : Option ErrorCode) :
    (client.settingsDone ec).registry = client.registry := by
  unfold settingsDone
  split <;> rfl

/-- It does so whatever the settings are by then. -/
theorem withSettings_registry (client : Client) (settings : SettingsManager)
    (ec : Option ErrorCode) :
    ({ client with settings }.settingsDone ec).registry = client.registry :=
  settingsDone_registry _ _

/-- The start of a disconnection leaves the streams alone. -/
@[simp] theorem initiateDisconnect_registry (client : Client) (ec : ErrorCode) :
    (client.initiateDisconnect ec).registry = client.registry := by
  unfold initiateDisconnect
  split
  · rfl
  · simp only
    split
    · exact settingsDone_registry _ _
    · rfl

/-- Received bytes are counted, and may be answered with a window update. -/
theorem countReceived_eq (client : Client) (size : Nat) :
    client.countReceived size = { client with
      localWindow := ((client.localWindow.dec size).update 0).2
      txCommandQueue := client.txCommandQueue ++
        ((client.localWindow.dec size).update 0).1.toList.map OutFrame.bytes } := by
  unfold countReceived
  rcases (client.localWindow.dec size).update 0 with ⟨_ | frame, window⟩
  · simp only [Option.toList_none, List.map_nil, List.append_nil]
  · rfl

private theorem countReceived_registry (client : Client) (size : Nat) :
    (client.countReceived size).registry = client.registry ∧
      (client.countReceived size).decoder = client.decoder := by
  rw [countReceived_eq]
  exact ⟨rfl, rfl⟩

/-- A caught call either leaves the streams alone or invokes one of them. -/
theorem caught_invokeForStream {client next : Client} {streamId : Nat}
    {received : Stream.Received}
    (reacted : caught (client.invokeForStream streamId received) = .ok next) :
    client.registry.invokeForStream streamId received = .ok next.registry := by
  unfold invokeForStream at reacted
  cases invoked : client.registry.invokeForStream streamId received with
  | error failure =>
      rw [invoked, StreamRegistry.invokeForStream_failure invoked] at reacted
      cases reacted
  | ok registry =>
      rw [invoked] at reacted
      cases reacted
      rfl

/-- What a caught call leaves: the client as the handler has left it, or with the
disconnection that follows an exception. -/
theorem caught_cases {outcome : Client × Option Failure} {next : Client}
    (reacted : caught outcome = .ok next) :
    next = outcome.1 ∨ ∃ ec, next = outcome.1.initiateDisconnect ec := by
  unfold caught at reacted
  split at reacted
  · cases reacted
    exact .inl rfl
  · cases reacted
  · cases reacted
    exact .inr ⟨_, rfl⟩

/-- A caught exception leaves the streams alone. -/
theorem caught_failure {client next : Client} {failure : Failure}
    (reacted : caught (client, some failure) = .ok next) : next.registry = client.registry := by
  cases failure with
  | undefinedBehaviour => cases reacted
  | _ =>
      cases reacted
      exact initiateDisconnect_registry _ _

private theorem decodeBlock_spec (client : Client) (block : Span) :
    (client.decodeBlock block).1.registry = client.registry ∧
      (client.decodeBlock block).2.toOption = (client.decoder.decode block).2.toOption := by
  unfold decodeBlock
  rcases client.decoder.decode block with ⟨decoder, result⟩
  cases result with
  | ok fields => exact ⟨rfl, rfl⟩
  | error failure => cases failure <;> exact ⟨rfl, rfl⟩

/-- The handlers of header blocks give the fields that were decoded to a stream. -/
theorem caught_block {client next : Client} {block : Span} {streamId : Nat}
    {received : List HeaderField → Stream.Received}
    (reacted : caught (client.onReceiveBlock block streamId received) = .ok next) :
    client.registry.deliver ((client.decoder.decode block).2.toOption.map
      fun fields => (streamId, received fields)) = .ok next.registry := by
  obtain ⟨registry, decoded⟩ := client.decodeBlock_spec block
  unfold onReceiveBlock at reacted
  rcases result : client.decodeBlock block with ⟨after, outcome⟩
  rw [result] at reacted registry decoded
  rw [← decoded, ← registry]
  cases outcome with
  | error failure => exact congrArg Except.ok (caught_failure reacted).symm
  | ok fields => exact caught_invokeForStream reacted

/-- The handlers do to the streams what was said above. -/
theorem frameHandler_registry {client next : Client} {frame : FrameAnalyzer} {data : Span}
    {type : FrameType} (reacted : caught (client.frameHandler frame data type) = .ok next) :
    client.registry.deliver (client.frameDelivery frame data.size type) = .ok next.registry := by
  cases type with
  | data => exact congrArg Except.ok (caught_failure reacted).symm
  | headers => exact caught_block reacted
  | rstStream => exact caught_invokeForStream reacted
  | continuation => exact caught_block reacted
  | windowUpdate =>
      simp only [frameHandler, onReceiveWindowUpdate, frameDelivery] at reacted ⊢
      split at reacted
      · cases reacted
        rename_i connection
        rw [if_pos connection]
        rfl
      · rename_i stream
        rw [if_neg stream]
        exact caught_invokeForStream reacted
  | settings =>
      simp only [frameHandler, onReceiveSettings] at reacted
      split at reacted <;> cases reacted
      · exact congrArg Except.ok (withSettings_registry client _ _).symm
      · exact congrArg Except.ok (withSettings_registry client _ _).symm
  | ping =>
      simp only [frameHandler, onReceivePing] at reacted
      split at reacted <;> cases reacted <;> rfl
  | priority =>
      cases reacted
      rfl
  | pushPromise =>
      cases reacted
      rfl
  | goaway =>
      cases reacted
      rfl

/-- **The streams after an event.** Apart from sending, an event changes the registry
as `registryAfter` says. -/
theorem react_registry {client next : Client} {event : Event} (sends : event ≠ .getTxData)
    (reacted : client.react event = .ok next) :
    client.registryAfter event = .ok next.registry := by
  cases event with
  | getTxData => exact absurd rfl sends
  | connected =>
      cases reacted
      rfl
  | command bytes =>
      cases reacted
      rfl
  | syncSettings remoteSync =>
      cases reacted
      unfold initiateSyncSettings SettingsManager.initiateSyncSettings
      split <;> rfl
  | settingsTimeout =>
      cases reacted
      exact congrArg Except.ok (withSettings_registry client _ _).symm
  | ping memory =>
      cases reacted
      unfold initiatePing
      split
      · rfl
      · split <;> rfl
  | send request =>
      cases reacted
      unfold initiateSend
      cases connected : client.isConnected with
      | false => simp only [registryAfter, connected, called, Bool.not_false, Bool.false_eq_true,
          ↓reduceIte]
      | true => simp only [registryAfter, connected, called, Bool.not_true, Bool.false_eq_true,
          ↓reduceIte]
  | streamTimeout ptr =>
      cases reacted
      rfl
  | disconnect ec =>
      cases reacted
      exact congrArg Except.ok (initiateDisconnect_registry _ _).symm
  | cleanup ec =>
      cases reacted
      rfl
  | receiveFrame data =>
      obtain ⟨registry, decoder⟩ := client.countReceived_registry data.size
      simp only [react, onReceiveFrame] at reacted
      simp only [registryAfter, delivery]
      cases analyzed : FrameAnalyzer.fromBuffer data with
      | error failure =>
          rw [analyzed] at reacted
          exact congrArg Except.ok ((caught_failure reacted).trans registry).symm
      | ok frame =>
          rw [analyzed] at reacted
          simp only at reacted ⊢
          cases type : FrameType.ofByte frame.typeByte with
          | none =>
              rw [type] at reacted
              cases reacted
          | some type =>
              rw [type] at reacted
              have delivered := frameHandler_registry reacted
              unfold frameDelivery at delivered
              rw [registry, decoder] at delivered
              exact delivered
  | receiveDataFrame buff =>
      obtain ⟨registry, _⟩ := client.countReceived_registry buff.size
      simp only [react, onReceiveDataFrame, onReceiveData] at reacted
      simp only [registryAfter, delivery]
      cases analyzed : FrameAnalyzer.fromBuffer buff >>= fun analyzer =>
          analyzer.getFrame .data with
      | error failure =>
          rw [analyzed] at reacted
          exact congrArg Except.ok ((caught_failure reacted).trans registry).symm
      | ok frame =>
          rw [analyzed] at reacted
          rw [← registry]
          exact caught_invokeForStream reacted

/-- A new client. -/
def start : Machine.History Client Tx := ⟨create, []⟩

end Client

end H2pp.Http2

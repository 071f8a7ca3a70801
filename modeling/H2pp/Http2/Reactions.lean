import H2pp.Http2.Scheduling

/-! # What a reaction changes

What the handlers of frames, the timers and the calls of the user do to a client, apart from
its streams: to the parts that are kept for the whole connection, and to the window for
received data with the queue of commands. Each handler is looked at once here. What holds of
the decoder, of the settings, of the ids or of the commands is then read off the two
descriptions, `coreAfter` and `Outbox.Filled`.
-/

namespace H2pp.Http2

open Utils Hpack

namespace SettingsManager

/-- Calling the handler changes no settings. -/
theorem finished_settings (manager : SettingsManager) (ec : ErrorCode) :
    (manager.finished ec).1.localSettings = manager.localSettings ∧
      (manager.finished ec).1.remoteSettings = manager.remoteSettings := by
  unfold finished
  split <;> exact ⟨rfl, rfl⟩

/-- Nor does the end of a connection. -/
theorem cancel_settings (manager : SettingsManager) (ec : ErrorCode) :
    (manager.cancel ec).1.localSettings = manager.localSettings ∧
      (manager.cancel ec).1.remoteSettings = manager.remoteSettings :=
  finished_settings _ _

/-- Nor does the timer. -/
theorem onTimeout_settings (manager : SettingsManager) :
    manager.onTimeout.1.localSettings = manager.localSettings ∧
      manager.onTimeout.1.remoteSettings = manager.remoteSettings := by
  unfold onTimeout
  split
  · exact finished_settings _ _
  · exact ⟨rfl, rfl⟩

/-- The items of a frame that is not an acknowledgement. -/
def announcedIn (frame : FrameAnalyzer) : List (Nat × Nat) :=
  if isAck frame then [] else readItems frame

/-- A SETTINGS frame leaves the settings of the client alone, and its items are applied to
those of the server. -/
theorem onSettingsFrame_settings (manager : SettingsManager) (frame : FrameAnalyzer) :
    (manager.onSettingsFrame frame).1.localSettings = manager.localSettings ∧
      (manager.onSettingsFrame frame).1.remoteSettings =
        (announcedIn frame).foldl applyItem manager.remoteSettings := by
  by_cases ack : frame.flags &&& Flags.ack ≠ 0
  · have answers : isAck frame = true := decide_eq_true ack
    rw [onSettingsFrame, if_pos ack, announcedIn, if_pos answers]
    simp only
    split
    · exact finished_settings _ _
    · exact ⟨rfl, rfl⟩
  · have brings : ¬ isAck frame = true := fun set => ack (of_decide_eq_true set)
    simp only [onSettingsFrame, if_neg ack, announcedIn, if_neg brings, and_self]

/-- It is acknowledged unless it is an acknowledgement itself. -/
theorem onSettingsFrame_answer (manager : SettingsManager) (frame : FrameAnalyzer) :
    (manager.onSettingsFrame frame).2.1 =
      if frame.flags &&& Flags.ack = 0 then some FrameBuilder.settingsAck else none := by
  by_cases ack : frame.flags &&& Flags.ack = 0
  · rw [if_pos ack, onSettingsFrame, if_neg (not_not.mpr ack)]
  · simp only [onSettingsFrame, if_pos ack, if_neg ack]
    split <;> rfl

end SettingsManager

namespace Client

variable {lowerBound : LowerBound} {client middle next : Client} {event : Event}

/-! ## The parts of the connection -/

/-- The parts of a client that belong to the connection. -/
structure Core where
  clientIdOrder : Nat
  decoder : Decoder
  encoder : Encoder
  settings : SettingsManager
  isConnected : Bool
  startDisconnect : Bool

/-- The parts of the connection. -/
def core (client : Client) : Core :=
  ⟨client.clientIdOrder, client.decoder, client.encoder, client.settings, client.isConnected,
    client.startDisconnect⟩

/-- The decoder after a header block. -/
def afterBlock (decoder : Decoder) (block : Span) : Decoder := (decoder.decode block).1

/-- The decoder after a frame. -/
def decoderFor (decoder : Decoder) (frame : FrameAnalyzer) : FrameType → Decoder
  | .headers => afterBlock decoder (frame.span frame.headerBlock)
  | .continuation => afterBlock decoder (frame.span frame.continuationBlock)
  | _ => decoder

/-- The settings after a frame. -/
def settingsFor (settings : SettingsManager) (frame : FrameAnalyzer) : FrameType → SettingsManager
  | .settings => (settings.onSettingsFrame frame).1
  | _ => settings

/-- The decoder after an event. -/
def decoderAfter (client : Client) : Event → Decoder
  | .receiveFrame data =>
      match FrameAnalyzer.fromBuffer data with
      | .error _ => client.decoder
      | .ok frame =>
          match FrameType.ofByte frame.typeByte with
          | none => client.decoder
          | some type => decoderFor client.decoder frame type
  | _ => client.decoder

/-- The settings after an event, if no handler throws. -/
def settingsAfter (client : Client) : Event → SettingsManager
  | .syncSettings remoteSync =>
      match client.settings.initiateSyncSettings {} remoteSync with
      | .error _ => client.settings
      | .ok (settings, _) => settings
  | .settingsTimeout => client.settings.onTimeout.1
  | .receiveFrame data =>
      match FrameAnalyzer.fromBuffer data with
      | .error _ => client.settings
      | .ok frame =>
          match FrameType.ofByte frame.typeByte with
          | none => client.settings
          | some type => settingsFor client.settings frame type
  | .disconnect ec =>
      if client.startDisconnect then client.settings else (client.settings.cancel ec).1
  | _ => client.settings

/-- The parts of the connection after an event, if no handler throws. -/
def coreAfter (client : Client) (event : Event) : Core where
  clientIdOrder :=
    match event with
    | .send _ =>
        if client.isConnected then (client.clientIdOrder + 1) % 2 ^ 32 else client.clientIdOrder
    | _ => client.clientIdOrder
  decoder := client.decoderAfter event
  encoder := client.encoder
  settings := client.settingsAfter event
  isConnected :=
    match event with
    | .connected => true
    | _ => client.isConnected
  startDisconnect :=
    match event with
    | .disconnect _ => true
    | _ => client.startDisconnect

namespace Core

/-- After the handler of a frame. -/
def afterFrame (core : Core) (frame : FrameAnalyzer) (type : FrameType) : Core :=
  { core with
    decoder := decoderFor core.decoder frame type
    settings := settingsFor core.settings frame type }

/-- After the start of a disconnection. -/
def disconnected (core : Core) (ec : ErrorCode) : Core :=
  { core with
    settings := if core.startDisconnect then core.settings else (core.settings.cancel ec).1
    startDisconnect := true }

/-- A core is left as it is, or a caught exception starts the disconnection. -/
inductive Ends (core : Core) : Core → Prop
  | normally : core.Ends core
  | thrown (ec : ErrorCode) : core.Ends (core.disconnected ec)

/-- Starting a disconnection cancels the synchronisation, which changes no settings. -/
theorem disconnected_settings (core : Core) (ec : ErrorCode) :
    (core.disconnected ec).settings.localSettings = core.settings.localSettings ∧
      (core.disconnected ec).settings.remoteSettings = core.settings.remoteSettings := by
  simp only [disconnected]
  split
  · exact ⟨rfl, rfl⟩
  · exact SettingsManager.cancel_settings _ _

/-- What a disconnection does not change can be read off before it. -/
theorem Ends.part {Part : Type} {core last : Core} (ends : core.Ends last) (part : Core → Part)
    (kept : ∀ ec, part (core.disconnected ec) = part core) : part last = part core := by
  cases ends with
  | normally => rfl
  | thrown ec => exact kept ec

end Core

/-! ## The window and the queue -/

/-- The window for received data, and the queue of commands. -/
structure Outbox where
  window : DummyWindow
  queue : List Bytes

/-- The window and the queue of a client. -/
def outbox (client : Client) : Outbox := ⟨client.localWindow, client.txCommandQueue⟩

/-- A command that the client queues on its own account. -/
inductive Own : Bytes → Prop
  | goaway (err : Nat) : Own (FrameBuilder.goaway err 1 []).bytes
  | ping (memory : Bytes) : Own (FrameBuilder.ping memory).bytes
  | settings {manager after : SettingsManager} {remoteSync : Bool} {frame : OutFrame}
      (started : manager.initiateSyncSettings {} remoteSync = .ok (after, frame)) :
      Own frame.bytes

namespace Outbox

/-- A command is queued. -/
def send (outbox : Outbox) (bytes : Bytes) : Outbox :=
  { outbox with queue := outbox.queue ++ [bytes] }

/-- Received bytes are counted, and credited if it is time. -/
def count (outbox : Outbox) (size : Nat) : Outbox where
  window := ((outbox.window.dec size).update 0).2
  queue := outbox.queue ++ ((outbox.window.dec size).update 0).1.toList.map OutFrame.bytes

/-- The window is replaced by that of the settings, and the difference credited. -/
def resize (outbox : Outbox) (settings : Settings) : Outbox :=
  let windowSize := settings.initialWindowSize * settings.maxConcurrentStreams % 2 ^ 32
  let windowIncrement := UInt32.ofNat windowSize - outbox.window.size
  { outbox with window := .create windowSize (windowSize / 2) }.send
    (FrameBuilder.updateWindow windowIncrement.toNat 0).bytes

/-- What a reaction makes of the window and the queue: it counts `received` bytes, queues the
commands that are `due`, and others on its own account. -/
inductive Filled (settings : Settings) (first : Outbox) : Nat → List Bytes → Outbox → Prop
  | same : Filled settings first 0 [] first
  | counted {received : Nat} {due : List Bytes} {outbox : Outbox} (size : Nat)
      (before : Filled settings first received due outbox) :
      Filled settings first (received + size) due (outbox.count size)
  | resized {received : Nat} {due : List Bytes} {outbox : Outbox}
      (before : Filled settings first received due outbox) :
      Filled settings first received due (outbox.resize settings)
  | own {received : Nat} {due : List Bytes} {outbox : Outbox} {bytes : Bytes} (own : Own bytes)
      (before : Filled settings first received due outbox) :
      Filled settings first received due (outbox.send bytes)
  | due {received : Nat} {due : List Bytes} {outbox : Outbox} (bytes : Bytes)
      (before : Filled settings first received due outbox) :
      Filled settings first received (due ++ [bytes]) (outbox.send bytes)

/-- One reaction after another. -/
theorem Filled.trans {settings : Settings} {first middle last : Outbox} {received more : Nat}
    {due later : List Bytes} (before : Filled settings first received due middle)
    (after : Filled settings middle more later last) :
    Filled settings first (received + more) (due ++ later) last := by
  induction after with
  | same =>
      rw [List.append_nil]
      exact before
  | counted size _ ih =>
      rw [← Nat.add_assoc]
      exact ih.counted size
  | resized _ ih => exact ih.resized
  | own own _ ih => exact ih.own own
  | due bytes _ ih =>
      rw [← List.append_assoc]
      exact ih.due bytes

end Outbox

/-! ## The handlers -/

/-- What a handler changes: it leaves `core`, counts `received` bytes and queues the commands
that are `due`. -/
structure Changes (client next : Client) (core : Core) (received : Nat) (due : List Bytes) :
    Prop where
  core : next.core = core
  outbox : Outbox.Filled client.settings.localSettings client.outbox received due next.outbox

namespace Changes

variable {core later : Core} {received more : Nat} {due answers : List Bytes}

/-- Nothing but other parts is changed. -/
theorem of_same (core : next.core = client.core) (outbox : next.outbox = client.outbox) :
    Changes client next client.core 0 [] :=
  ⟨core, outbox ▸ .same⟩

/-- The handler starts with a change of other parts. -/
theorem before (step : Changes middle next core received due)
    (outbox : middle.outbox = client.outbox)
    (kept : middle.settings.localSettings = client.settings.localSettings) :
    Changes client next core received due :=
  ⟨step.core, kept ▸ outbox ▸ step.outbox⟩

/-- Two steps, of which the first leaves the settings of the client alone. -/
theorem trans (first : Changes client middle core received due)
    (kept : core.settings.localSettings = client.settings.localSettings)
    (second : Changes middle next later more answers) :
    Changes client next later (received + more) (due ++ answers) := by
  have same : middle.settings.localSettings = client.settings.localSettings :=
    (congrArg (·.settings.localSettings) first.core).trans kept
  exact ⟨second.core, first.outbox.trans (same ▸ second.outbox)⟩

/-- A command of the client's own. -/
theorem sendOwn (client : Client) {bytes : Bytes} (own : Own bytes) :
    Changes client (client.sendCommand bytes) client.core 0 [] :=
  ⟨rfl, Outbox.Filled.same.own own⟩

/-- A command that is due. -/
theorem sendDue (client : Client) (bytes : Bytes) :
    Changes client (client.sendCommand bytes) client.core 0 [bytes] :=
  ⟨rfl, Outbox.Filled.same.due bytes⟩

end Changes

/-- The handler of the settings. -/
theorem settingsDone_changes (client : Client) (called : Option ErrorCode) :
    Changes client (client.settingsDone called) client.core 0 [] := by
  unfold settingsDone
  split
  · exact ⟨rfl, Outbox.Filled.same.resized⟩
  · exact .of_same rfl rfl

/-- The window of the connection. -/
theorem countReceived_changes (client : Client) (size : Nat) :
    Changes client (client.countReceived size) client.core size [] := by
  have counted :=
    (@Outbox.Filled.same client.settings.localSettings client.outbox).counted size
  rw [Nat.zero_add] at counted
  rw [countReceived_eq]
  exact ⟨rfl, counted⟩

/-- The start of a disconnection. -/
theorem initiateDisconnect_changes (client : Client) (ec : ErrorCode) :
    Changes client (client.initiateDisconnect ec) (client.core.disconnected ec) 0 [] := by
  rw [initiateDisconnect, Core.disconnected]
  cases started : client.startDisconnect with
  | true =>
      refine ⟨?_, .same⟩
      simp only [core, started, if_true]
  | false =>
      have kept := (client.settings.cancel_settings ec).1
      have off : client.core.startDisconnect = false := started
      rw [off, if_neg Bool.false_ne_true, if_neg Bool.false_ne_true]
      simp only
      split
      · exact (settingsDone_changes _ _).before rfl kept
      · exact (Changes.sendOwn _ (.goaway 0)).before rfl kept

/-- The call of a stream. -/
theorem invokeForStream_changes (client : Client) (streamId : Nat) (received : Stream.Received) :
    Changes client (client.invokeForStream streamId received).1 client.core 0 [] := by
  unfold invokeForStream
  split <;> exact .of_same rfl rfl

/-- The handlers of header blocks. -/
theorem onReceiveBlock_changes (client : Client) (block : Span) (streamId : Nat)
    (received : List HeaderField → Stream.Received) :
    Changes client (client.onReceiveBlock block streamId received).1
      { client.core with decoder := afterBlock client.decoder block } 0 [] := by
  have decoded : (client.decodeBlock block).1 =
      { client with decoder := afterBlock client.decoder block } := by
    unfold decodeBlock afterBlock
    simp only
    split <;> rfl
  unfold onReceiveBlock
  generalize client.decodeBlock block = outcome at decoded
  obtain ⟨after, result⟩ := outcome
  cases decoded
  cases result with
  | error failure => exact ⟨rfl, .same⟩
  | ok fields => exact (invokeForStream_changes _ _ _).before rfl rfl

/-- The answer to a frame of the server: a PING frame comes back with the ACK flag, and
settings are acknowledged. -/
def answerTo (data : Span) : FrameType → List Bytes
  | .ping => if data.mem 4 &&& Flags.ack = 0 then [data.bytes.modify 4 (· ||| Flags.ack)] else []
  | .settings => if data.mem 4 &&& Flags.ack = 0 then [FrameBuilder.settingsAck.bytes] else []
  | _ => []

/-- The handler of SETTINGS frames. -/
theorem onReceiveSettings_changes (client : Client) {frame : FrameAnalyzer} {data : Span}
    (flags : frame.flags = data.mem 4) :
    Changes client (client.onReceiveSettings frame).1
      { client.core with settings := (client.settings.onSettingsFrame frame).1 } 0
      (answerTo data .settings) := by
  have answer := client.settings.onSettingsFrame_answer frame
  have kept := (client.settings.onSettingsFrame_settings frame).1
  unfold onReceiveSettings answerTo
  generalize client.settings.onSettingsFrame frame = outcome at answer kept
  obtain ⟨settings, ack, called⟩ := outcome
  have done : Changes client ({ client with settings }.settingsDone called)
      { client.core with settings } 0 [] := (settingsDone_changes _ _).before rfl kept
  rw [flags] at answer
  simp only at answer ⊢
  by_cases set : data.mem 4 &&& Flags.ack = 0
  · rw [if_pos set] at answer ⊢
    rw [answer]
    have sent := Changes.sendDue ({ client with settings }.settingsDone called)
      FrameBuilder.settingsAck.bytes
    rw [done.core] at sent
    exact done.trans kept sent
  · rw [if_neg set] at answer ⊢
    rw [answer]
    exact done

/-- The handler of PING frames. -/
theorem onReceivePing_changes (client : Client) {frame : FrameAnalyzer} {data : Span}
    (flags : frame.flags = data.mem 4) :
    Changes client (client.onReceivePing frame data).1 client.core 0 (answerTo data .ping) := by
  unfold onReceivePing answerTo
  rw [flags]
  by_cases set : data.mem 4 &&& Flags.ack = 0
  · rw [if_neg (not_not.mpr set), if_pos set]
    exact .sendDue client _
  · rw [if_pos set, if_neg set]
    exact .of_same rfl rfl

/-- The handler of WINDOW_UPDATE frames. -/
theorem onReceiveWindowUpdate_changes (client : Client) (frame : FrameAnalyzer) :
    Changes client (client.onReceiveWindowUpdate frame).1 client.core 0 [] := by
  -- the sum is kept out of what is compared
  have increased (size : Nat) :
      Changes client { client with serverWindowSize := size } client.core 0 [] := .of_same rfl rfl
  rw [onReceiveWindowUpdate]
  by_cases connection : frame.streamId = 0
  · rw [if_pos connection]
    exact increased _
  · rw [if_neg connection]
    exact invokeForStream_changes _ _ _

/-- The handlers of the ten frame types. -/
theorem frameHandler_changes (client : Client) {frame : FrameAnalyzer} {data : Span}
    (flags : frame.flags = data.mem 4) (type : FrameType) :
    Changes client (client.frameHandler frame data type).1 (client.core.afterFrame frame type) 0
      (answerTo data type) := by
  cases type with
  | data => exact .of_same rfl rfl
  | headers => exact onReceiveBlock_changes _ _ _ _
  | priority => exact .of_same rfl rfl
  | rstStream => exact invokeForStream_changes _ _ _
  | settings => exact onReceiveSettings_changes client flags
  | pushPromise => exact .sendOwn client (.goaway _)
  | ping => exact onReceivePing_changes client flags
  | goaway => exact .of_same rfl rfl
  | windowUpdate => exact onReceiveWindowUpdate_changes _ _
  | continuation => exact onReceiveBlock_changes _ _ _ _

/-- The frame that an event brings. -/
def Event.span : Event → Option Span
  | .receiveFrame data => some data
  | .receiveDataFrame buff => some buff
  | _ => none

/-- The bytes of an event that the window of the connection counts. -/
def Event.rawSize (event : Event) : Nat := (event.span.map Span.size).getD 0

/-- The commands that an event asks for. -/
def due : Event → List Bytes
  | .command bytes => [bytes]
  | .receiveFrame data =>
      match FrameAnalyzer.fromBuffer data with
      | .error _ => []
      | .ok frame =>
          match FrameType.ofByte frame.typeByte with
          | none => []
          | some type => answerTo data type
  | _ => []

/-- `on_receive_frame`. -/
theorem onReceiveFrame_changes (client : Client) (data : Span) :
    Changes client (client.onReceiveFrame data).1 (client.coreAfter (.receiveFrame data))
      data.size (due (.receiveFrame data)) := by
  have counted := client.countReceived_changes data.size
  simp only [onReceiveFrame, coreAfter, decoderAfter, settingsAfter, due]
  cases analyzed : FrameAnalyzer.fromBuffer data with
  | error failure => exact counted
  | ok frame =>
      have flags : frame.flags = data.mem 4 := FrameAnalyzer.flags_fromBuffer analyzed
      simp only
      cases FrameType.ofByte frame.typeByte with
      | none => exact counted
      | some type =>
          have after := (client.countReceived data.size).frameHandler_changes flags type
          rw [counted.core] at after
          exact counted.trans rfl after

/-- `on_receive_data_frame`. -/
theorem onReceiveDataFrame_changes (client : Client) (buff : Span) :
    Changes client (client.onReceiveDataFrame buff).1 client.core buff.size [] := by
  have counted := client.countReceived_changes buff.size
  unfold onReceiveDataFrame onReceiveData
  split
  · exact counted
  · have invoked := fun streamId received =>
      (client.countReceived buff.size).invokeForStream_changes streamId received
    rw [counted.core] at invoked
    exact counted.trans rfl (invoked _ _)

/-- A handler that throws has the disconnection started. -/
theorem caught_changes {outcome : Client × Option Failure} {core : Core} {received : Nat}
    {due : List Bytes} (handled : Changes client outcome.1 core received due)
    (kept : core.settings.localSettings = client.settings.localSettings)
    (reacted : caught outcome = .ok next) :
    ∃ last, core.Ends last ∧ Changes client next last received due := by
  obtain rfl | ⟨ec, rfl⟩ := caught_cases reacted
  · exact ⟨core, .normally, handled⟩
  · have both := handled.trans kept (outcome.1.initiateDisconnect_changes ec)
    rw [List.append_nil, handled.core] at both
    exact ⟨core.disconnected ec, .thrown ec, both⟩

/-- Only `initiate_sync_settings` sets the settings of the client, to their defaults. -/
theorem settingsAfter_localSettings (client : Client) (event : Event) :
    (client.settingsAfter event).localSettings = client.settings.localSettings ∨
      (∃ remoteSync, event = .syncSettings remoteSync) ∧
        (client.settingsAfter event).localSettings = {} := by
  cases event with
  | syncSettings remoteSync =>
      simp only [settingsAfter, SettingsManager.initiateSyncSettings]
      cases client.settings.settingsHandler with
      | true => exact .inl rfl
      | false => exact .inr ⟨⟨remoteSync, rfl⟩, rfl⟩
  | settingsTimeout => exact .inl client.settings.onTimeout_settings.1
  | receiveFrame data =>
      refine .inl ?_
      simp only [settingsAfter]
      split
      · rfl
      · split
        · rfl
        · rename_i frame _ _ type _
          cases type with
          | settings => exact (client.settings.onSettingsFrame_settings frame).1
          | _ => rfl
  | disconnect ec =>
      refine .inl ?_
      simp only [settingsAfter]
      split
      · rfl
      · exact (client.settings.cancel_settings ec).1
  | _ => exact .inl rfl

/-- Frames leave the settings of the client alone. -/
theorem settingsAfter_frame (client : Client) (data : Span) :
    (client.settingsAfter (.receiveFrame data)).localSettings = client.settings.localSettings := by
  refine (client.settingsAfter_localSettings (.receiveFrame data)).resolve_right ?_
  rintro ⟨⟨_, same⟩, _⟩
  cases same

/-- **What an event changes**, apart from the streams: the parts of the connection are as
`coreAfter` says, up to a disconnection, the bytes that came are counted, and the commands
that are due are queued. -/
theorem react_changes (reacted : client.react event = .ok next) :
    ∃ core, (client.coreAfter event).Ends core ∧
      Changes client next core event.rawSize (due event) := by
  cases event with
  | connected =>
      cases reacted
      exact ⟨_, .normally, rfl, .same⟩
  | command bytes =>
      cases reacted
      exact ⟨_, .normally, .sendDue client bytes⟩
  | syncSettings remoteSync =>
      cases reacted
      refine ⟨_, .normally, ?_⟩
      simp only [initiateSyncSettings, coreAfter, settingsAfter]
      cases started : client.settings.initiateSyncSettings {} remoteSync with
      | error failure => exact .of_same rfl rfl
      | ok outcome => exact ⟨rfl, Outbox.Filled.same.own (.settings started)⟩
  | settingsTimeout =>
      cases reacted
      exact ⟨_, .normally, (settingsDone_changes _ _).before rfl
        client.settings.onTimeout_settings.1⟩
  | ping memory =>
      cases reacted
      refine ⟨_, .normally, ?_⟩
      unfold initiatePing
      split
      · exact .of_same rfl rfl
      · split
        · exact .of_same rfl rfl
        · exact (Changes.sendOwn _ (.ping memory)).before rfl rfl
  | send request =>
      cases reacted
      refine ⟨_, .normally, ?_⟩
      unfold initiateSend
      cases connected : client.isConnected with
      | false =>
          refine ⟨?_, .same⟩
          simp only [called, core, coreAfter, connected, Bool.not_false, if_true,
            if_neg Bool.false_ne_true]
          rfl
      | true =>
          refine ⟨?_, .same⟩
          simp only [called, core, coreAfter, connected, Bool.not_true, if_true,
            if_neg Bool.false_ne_true]
          rfl
  | streamTimeout ptr =>
      cases reacted
      exact ⟨_, .normally, .of_same rfl rfl⟩
  | receiveFrame data =>
      exact caught_changes (client.onReceiveFrame_changes data) (client.settingsAfter_frame data)
        reacted
  | receiveDataFrame buff =>
      exact caught_changes (client.onReceiveDataFrame_changes buff) rfl reacted
  | getTxData =>
      cases reacted
      exact ⟨_, .normally, .of_same rfl rfl⟩
  | disconnect ec =>
      cases reacted
      exact ⟨_, .normally, client.initiateDisconnect_changes ec⟩
  | cleanup ec =>
      cases reacted
      exact ⟨_, .normally, .of_same rfl rfl⟩

/-- Requests are accepted on a connection only. -/
theorem connected_of_initiateSend {request : Request}
    (accepted : client.initiateSend request = .ok next) : client.isConnected = true := by
  unfold initiateSend at accepted
  split at accepted
  · cases accepted
  · rename_i connected
    rw [Bool.not_eq_true', Bool.not_eq_false] at connected
    exact connected

/-- A request that is accepted takes the next id. -/
theorem initiateSend_core {request : Request}
    (accepted : client.initiateSend request = .ok next) :
    next.core = { client.core with clientIdOrder := next.clientIdOrder } := by
  unfold initiateSend at accepted
  split at accepted
  · cases accepted
  · cases accepted
    rfl

/-- Sending changes nothing of it but the encoder. -/
theorem getTxData_core {out : List Tx} (sent : client.getTxData lowerBound = .ok (next, out)) :
    next.core = { client.core with encoder := next.encoder } := by
  obtain ⟨_, _, _, _, ⟨_, same, _⟩ | ⟨_, _, _, same, _⟩⟩ := getTxData_cases sent
  · rw [same]
    rfl
  · rw [same]
    rfl

/-! ## Reading off a part -/

section Part

variable {Part : Type} (part : Core → Part)
  (kept : ∀ (core : Core) (ec : ErrorCode), part (core.disconnected ec) = part core)

include kept

/-- A part that no disconnection changes, after an event. -/
theorem react_part (reacted : client.react event = .ok next) :
    part next.core = part (client.coreAfter event) := by
  obtain ⟨core, ends, changes⟩ := react_changes reacted
  rw [changes.core]
  exact ends.part part (kept _)

/-- The same for every step, if the part does not read the encoder. -/
theorem step_part (blind : ∀ (core : Core) (encoder : Encoder),
      part { core with encoder } = part core) {out : List Tx}
    (stepped : (machine lowerBound).step client event = .ok (next, out)) :
    part next.core = part (client.coreAfter event) := by
  rcases step_react stepped with ⟨rfl, sent⟩ | ⟨_, _, reacted⟩
  · rw [getTxData_core sent]
    exact blind _ _
  · exact react_part part kept reacted

end Part

/-- The settings of the client stay, or are set to their defaults. -/
theorem react_localSettings (reacted : client.react event = .ok next) :
    next.settings.localSettings = client.settings.localSettings ∨
      next.settings.localSettings = {} := by
  have read := react_part (·.settings.localSettings)
    (fun core ec => (core.disconnected_settings ec).1) reacted
  rcases client.settingsAfter_localSettings event with same | ⟨_, fresh⟩
  · exact .inl (read.trans same)
  · exact .inr (read.trans fresh)

end Client

end H2pp.Http2

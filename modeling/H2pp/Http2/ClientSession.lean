import H2pp.Http2.BaseClient

/-! # The session

`client_session.h`: the client on its transport. At most one read is under way, and one
chain of writes, each of which is prepared by a function posted to the event loop. A
session is connected when its settings are synchronised. A disconnection begins when the
flag `start_disconnect_flag` is set; it is completed by the write chain when that finds
nothing more to send. The transport completes every operation once.
-/

namespace H2pp.Http2

open Utils Hpack

/-- `client_session`: the client, the flags of the write chain, and the operations that
are under way. `posted` counts the functions posted by `init_write`, and `syncResult` is
what the coroutine `co_init` is resumed with. The last three say how often the clean-up
has run and the handlers were called. -/
structure Session where
  client : Client
  inputBuffer : Buffer
  txRunning : Bool
  txRoutineDone : Bool
  connectionErrorCode : ErrorCode
  disconnectHandler : Bool
  syncResult : Option ErrorCode
  posted : Nat
  reads : Nat
  writes : Nat
  disconnects : Nat
  cleanups : Nat
  shutdownCalls : List ErrorCode
  disconnectCalls : Nat

namespace Session

/-- `client_session(io)`. -/
def create : Session where
  client := .create
  inputBuffer := .create 64
  txRunning := false
  txRoutineDone := false
  connectionErrorCode := .success
  disconnectHandler := false
  syncResult := none
  posted := 0
  reads := 0
  writes := 0
  disconnects := 0
  cleanups := 0
  shutdownCalls := []
  disconnectCalls := 0

/-- `init_read()`. -/
def initRead (session : Session) : Session :=
  if session.client.startDisconnect then session else { session with reads := session.reads + 1 }

/-- `init_write()`. -/
def initWrite (session : Session) : Session :=
  if session.txRunning then session
  else { session with txRunning := true, posted := session.posted + 1 }

/-- `check_shutdown()`. -/
def checkShutdown (session : Session) : Session :=
  if session.txRoutineDone then { session with disconnects := session.disconnects + 1 }
  else session

/-- `co_init(host, service)` from the connection of the transport up to the wait for the
settings. -/
def coInit (session : Session) : Except Failure Session := do
  let session := { session with
    txRunning := false
    txRoutineDone := false
    connectionErrorCode := .success
    client := session.client.writeInitialFrames }.initRead
  let client ← session.client.initiateSyncSettings true
  .ok { session with client }.initWrite

/-- The handler of the settings resumes the coroutine, if it is called. -/
def synced (session : Session) (called : Option ErrorCode) : Session :=
  { session with syncResult := called <|> session.syncResult }

/-- The rest of `co_init`, after a synchronisation without an error. -/
def onSynced (session : Session) : Session :=
  { session with
    client := { session.client with isConnected := true }, connectionErrorCode := .success }

/-- `initiate_disconnect(ec, handler)`. A handler of the settings that is cancelled
without an error calls `init_write` itself. -/
def initiateDisconnect (session : Session) (ec : ErrorCode) (handler : Bool) : Session :=
  if session.client.startDisconnect then
    if handler then { session with disconnectCalls := session.disconnectCalls + 1 } else session
  else
    let called := (session.client.settings.cancel ec).2
    let session := { session with client := session.client.initiateDisconnect ec }.synced called
    if called.isSome then (if ec = .success then session.initWrite else session)
    else { session with connectionErrorCode := ec, disconnectHandler := handler }.initWrite

/-- What a frame has the handler of the settings called with. -/
def settingsCalled (client : Client) (data : Span) : Option ErrorCode :=
  match FrameAnalyzer.fromBuffer data with
  | .error _ => none
  | .ok frame =>
      if FrameType.ofByte frame.typeByte = some .settings then
        (client.settings.onSettingsFrame frame).2.2
      else none

/-- The session as `on_read` uses it. -/
def handlers (around : Int → UInt8) : Handlers Session where
  maxFrameSize session := session.client.settings.localSettings.maxFrameSize
  onReceiveFrame session data :=
    ({ session with client := (session.client.onReceiveFrame data).1 }.synced
        (settingsCalled session.client data),
      (session.client.onReceiveFrame data).2)
  onReceiveDataFrame session buff :=
    ({ session with
        client := (session.client.onReceiveDataFrame (Span.ofBytes around buff.data)).1 },
      (session.client.onReceiveDataFrame (Span.ofBytes around buff.data)).2)
  initiateDisconnect session ec := session.initiateDisconnect ec false
  initWrite session := session.initWrite

/-- `on_data_read(ec, bytes_transferred)` without an error. -/
def onDataRead (session : Session) (around : Int → UInt8) (bytes : Bytes) :
    Except Failure Session := do
  let (session, inputBuffer) ← Reader.onRead (handlers around) around session
    (session.inputBuffer.commit bytes)
  .ok { session with inputBuffer }.initRead

/-- The start of a disconnection after a transport error. -/
def failed (session : Session) (ec : ErrorCode) : Session :=
  if session.client.startDisconnect then session
  else { session with
    client := { session.client with startDisconnect := true }, connectionErrorCode := ec }

/-- The function that `init_write` posts. -/
def runPosted (lowerBound : LowerBound) (session : Session) :
    Except Failure (Session × List Tx) := do
  let (client, txQueue) ← session.client.getTxData lowerBound
  let session := { session with client }
  if txQueue = [] then
    let session := { session with txRunning := false }
    .ok (if client.startDisconnect then { session with txRoutineDone := true }.checkShutdown
      else session, [])
  else .ok ({ session with writes := session.writes + 1 }, txQueue)

/-- `on_data_write(ec, bytes_transferred)` without an error. -/
def onDataWrite (session : Session) : Session := { session with txRunning := false }.initWrite

/-- `on_data_write(ec, bytes_transferred)` with an error. -/
def onWriteError (session : Session) (ec : ErrorCode) : Session :=
  { session.failed ec with txRunning := false, txRoutineDone := true }

/-- The handler of `check_shutdown`, when the transport is disconnected. -/
def onDisconnected (session : Session) : Session :=
  { session with
    client := session.client.cleanupAfterDisconnect session.connectionErrorCode
    cleanups := session.cleanups + 1
    shutdownCalls := session.shutdownCalls ++ [session.connectionErrorCode]
    disconnectCalls := session.disconnectCalls + if session.disconnectHandler then 1 else 0
    disconnectHandler := false }

/-- An event of the session: the coroutine is resumed, a call of the user, a timer, a
posted function, or an operation of the transport that completes. -/
inductive Event
  | synced
  | disconnect
  | send (request : Request)
  | ping (memory : Bytes)
  | settingsTimeout
  | streamTimeout (ptr : Nat)
  | posted
  | read (around : Int → UInt8) (bytes : Bytes)
  | readError (ec : ErrorCode)
  | written
  | writeError (ec : ErrorCode)
  | disconnected

/-- An event that concerns the client only. -/
def react (session : Session) (event : Client.Event) : Except Failure (Session × List Tx) := do
  let client ← session.client.react event
  .ok ({ session with client }, [])

/-- The session with what it sends. What is not under way does not complete. -/
def machine (lowerBound : LowerBound) : Machine Session Event Tx Failure where
  step session event :=
    match event with
    | .synced =>
        if session.syncResult = some .success ∧ session.client.isConnected = false then
          .ok (session.onSynced, [])
        else .ok (session, [])
    | .disconnect => .ok (session.initiateDisconnect .success true, [])
    | .send request =>
        match session.client.initiateSend request with
        | .ok client => .ok ({ session with client }.initWrite, [])
        | .error _ => .ok (session, [])
    | .ping memory => session.react (.ping memory)
    | .settingsTimeout => do
        let (next, out) ← session.react .settingsTimeout
        .ok (next.synced session.client.settings.onTimeout.2, out)
    | .streamTimeout ptr => session.react (.streamTimeout ptr)
    | .posted =>
        if session.posted = 0 then .ok (session, [])
        else { session with posted := session.posted - 1 }.runPosted lowerBound
    | .read around bytes =>
        if session.reads = 0 then .ok (session, [])
        else do
          let session ← { session with reads := session.reads - 1 }.onDataRead around bytes
          .ok (session, [])
    | .readError ec =>
        if session.reads = 0 then .ok (session, [])
        else .ok ({ session with reads := session.reads - 1 }.failed ec, [])
    | .written =>
        if session.writes = 0 then .ok (session, [])
        else .ok ({ session with writes := session.writes - 1 }.onDataWrite, [])
    | .writeError ec =>
        if session.writes = 0 then .ok (session, [])
        else .ok ({ session with writes := session.writes - 1 }.onWriteError ec, [])
    | .disconnected =>
        if session.disconnects = 0 then .ok (session, [])
        else .ok ({ session with disconnects := session.disconnects - 1 }.onDisconnected, [])

variable {lowerBound : LowerBound} {session next : Session} {event : Event} {out : List Tx}

/-- What `initiate_disconnect` does to a session: another call is noted if it has started, and
else the client starts it, the coroutine may be resumed, and the write chain may be started. -/
theorem initiateDisconnect_keeps {kept : Session → Prop} (ec : ErrorCode) (handler : Bool)
    (write : ∀ session, kept session → kept session.initWrite)
    (noted : session.client.startDisconnect = true →
      ∀ disconnectCalls, kept { session with disconnectCalls })
    (starts : ∀ syncResult connectionErrorCode disconnectHandler, kept { session with
      client := session.client.initiateDisconnect ec
      syncResult, connectionErrorCode, disconnectHandler }) :
    kept (session.initiateDisconnect ec handler) := by
  unfold initiateDisconnect
  by_cases started : session.client.startDisconnect = true
  · rw [if_pos started]
    split
    · exact noted started _
    · exact noted started session.disconnectCalls
  · rw [if_neg started]
    simp only
    split
    · split
      · exact write _ (starts _ _ _)
      · exact starts _ _ _
    · exact write _ (starts _ _ _)

/-- An event that finds nothing to do: what is to complete is not under way, or the call is
refused. -/
def Idle (session : Session) : Event → Prop
  | .synced => ¬ (session.syncResult = some .success ∧ session.client.isConnected = false)
  | .send request => ∀ client, session.client.initiateSend request ≠ .ok client
  | .posted => session.posted = 0
  | .read _ _ => session.reads = 0
  | .readError _ => session.reads = 0
  | .written => session.writes = 0
  | .writeError _ => session.writes = 0
  | .disconnected => session.disconnects = 0
  | _ => False

/-- What a step of the session can do. -/
inductive Stepped (lowerBound : LowerBound) (session : Session) :
    Event → Session → List Tx → Prop
  | idle {event : Event} (idle : session.Idle event) : Stepped lowerBound session event session []
  | synced (resumed : session.syncResult = some .success) :
      Stepped lowerBound session .synced session.onSynced []
  | disconnect :
      Stepped lowerBound session .disconnect (session.initiateDisconnect .success true) []
  | send {request : Request} {client : Client}
      (accepted : session.client.initiateSend request = .ok client) :
      Stepped lowerBound session (.send request) { session with client }.initWrite []
  | ping {memory : Bytes} {client : Client}
      (reacted : session.client.react (.ping memory) = .ok client) :
      Stepped lowerBound session (.ping memory) { session with client } []
  | settingsTimeout {client : Client}
      (reacted : session.client.react .settingsTimeout = .ok client) :
      Stepped lowerBound session .settingsTimeout
        ({ session with client }.synced session.client.settings.onTimeout.2) []
  | streamTimeout {ptr : Nat} {client : Client}
      (reacted : session.client.react (.streamTimeout ptr) = .ok client) :
      Stepped lowerBound session (.streamTimeout ptr) { session with client } []
  | posted {next : Session} {out : List Tx} (some : session.posted ≠ 0)
      (ran : { session with posted := session.posted - 1 }.runPosted lowerBound =
        .ok (next, out)) :
      Stepped lowerBound session .posted next out
  | read {around : Int → UInt8} {bytes : Bytes} {next : Session} (some : session.reads ≠ 0)
      (read : { session with reads := session.reads - 1 }.onDataRead around bytes = .ok next) :
      Stepped lowerBound session (.read around bytes) next []
  | readError {ec : ErrorCode} (some : session.reads ≠ 0) :
      Stepped lowerBound session (.readError ec)
        ({ session with reads := session.reads - 1 }.failed ec) []
  | written (some : session.writes ≠ 0) :
      Stepped lowerBound session .written
        { session with writes := session.writes - 1 }.onDataWrite []
  | writeError {ec : ErrorCode} (some : session.writes ≠ 0) :
      Stepped lowerBound session (.writeError ec)
        ({ session with writes := session.writes - 1 }.onWriteError ec) []
  | disconnected (some : session.disconnects ≠ 0) :
      Stepped lowerBound session .disconnected
        { session with disconnects := session.disconnects - 1 }.onDisconnected []

/-- An event of the client only changes the client. -/
theorem react_eq_ok {event : Client.Event} (reacted : session.react event = .ok (next, out)) :
    ∃ client, session.client.react event = .ok client ∧ next = { session with client } ∧
      out = [] := by
  obtain ⟨client, inner, same⟩ := Outcome.bind_eq_ok.mp reacted
  cases same
  exact ⟨client, inner, rfl, rfl⟩

/-- **A step of the session** does one of these. -/
theorem step_stepped (stepped : (machine lowerBound).step session event = .ok (next, out)) :
    Stepped lowerBound session event next out := by
  cases event with
  | synced =>
      simp only [machine] at stepped
      split at stepped
      · rename_i resumed
        cases stepped
        exact .synced resumed.1
      · rename_i unresumed
        cases stepped
        exact .idle unresumed
  | disconnect =>
      cases stepped
      exact .disconnect
  | send request =>
      simp only [machine] at stepped
      cases sent : session.client.initiateSend request with
      | ok client =>
          rw [sent] at stepped
          cases stepped
          exact .send sent
      | error failure =>
          rw [sent] at stepped
          cases stepped
          refine .idle fun client accepted => ?_
          rw [sent] at accepted
          cases accepted
  | ping memory =>
      obtain ⟨client, reacted, rfl, rfl⟩ := react_eq_ok stepped
      exact .ping reacted
  | settingsTimeout =>
      obtain ⟨⟨middle, none⟩, inner, outer⟩ := Outcome.bind_eq_ok.mp stepped
      obtain ⟨client, reacted, rfl, rfl⟩ := react_eq_ok inner
      cases outer
      exact .settingsTimeout reacted
  | streamTimeout ptr =>
      obtain ⟨client, reacted, rfl, rfl⟩ := react_eq_ok stepped
      exact .streamTimeout reacted
  | posted =>
      by_cases none : session.posted = 0
      · simp only [machine, if_pos none] at stepped
        cases stepped
        exact .idle none
      · simp only [machine, if_neg none] at stepped
        exact .posted none stepped
  | read around bytes =>
      by_cases none : session.reads = 0
      · simp only [machine, if_pos none] at stepped
        cases stepped
        exact .idle none
      · simp only [machine, if_neg none] at stepped
        obtain ⟨after, read, same⟩ := Outcome.bind_eq_ok.mp stepped
        cases same
        exact .read none read
  | readError ec =>
      by_cases none : session.reads = 0
      · simp only [machine, if_pos none] at stepped
        cases stepped
        exact .idle none
      · simp only [machine, if_neg none] at stepped
        cases stepped
        exact .readError none
  | written =>
      by_cases none : session.writes = 0
      · simp only [machine, if_pos none] at stepped
        cases stepped
        exact .idle none
      · simp only [machine, if_neg none] at stepped
        cases stepped
        exact .written none
  | writeError ec =>
      by_cases none : session.writes = 0
      · simp only [machine, if_pos none] at stepped
        cases stepped
        exact .idle none
      · simp only [machine, if_neg none] at stepped
        cases stepped
        exact .writeError none
  | disconnected =>
      by_cases none : session.disconnects = 0
      · simp only [machine, if_pos none] at stepped
        cases stepped
        exact .idle none
      · simp only [machine, if_neg none] at stepped
        cases stepped
        exact .disconnected none

/-! ## The write chain -/

/-- The write chain is one posted function or one write while it runs, and nothing after
its end. -/
def OneChain (session : Session) : Prop :=
  session.posted + session.writes = if session.txRunning then 1 else 0

namespace OneChain

/-- A function that is posted, or a write, is the whole chain. -/
theorem only (chain : session.OneChain) (some : 0 < session.posted + session.writes) :
    session.posted + session.writes = 1 ∧ session.txRunning = true := by
  unfold OneChain at chain
  cases running : session.txRunning with
  | true => exact ⟨by rw [running] at chain; exact chain, rfl⟩
  | false =>
      rw [running] at chain
      exact absurd chain (Nat.ne_of_gt some)

/-- So there is one write at most. -/
theorem writes_le (chain : session.OneChain) : session.writes ≤ 1 := by
  unfold OneChain at chain
  split at chain <;> omega

/-- Nothing is left when the function that was posted has been taken. -/
theorem takePosted (chain : session.OneChain) (some : session.posted ≠ 0) :
    session.posted - 1 = 0 ∧ session.writes = 0 := by
  have only := (chain.only (by omega)).1
  omega

/-- Nothing is left when the write has ended. -/
theorem takeWrite (chain : session.OneChain) (some : session.writes ≠ 0) :
    session.posted = 0 ∧ session.writes - 1 = 0 := by
  have only := (chain.only (by omega)).1
  omega

private theorem initWrite (chain : session.OneChain) : session.initWrite.OneChain := by
  unfold Session.initWrite
  split
  · exact chain
  · rename_i idle
    unfold OneChain at chain ⊢
    rw [if_neg idle] at chain
    simp only [if_true]
    omega

private theorem initiateDisconnect (chain : session.OneChain) (ec : ErrorCode) (handler : Bool) :
    (session.initiateDisconnect ec handler).OneChain :=
  initiateDisconnect_keeps ec handler (fun _ => initWrite) (fun _ _ => chain) fun _ _ _ => chain

/-- The function that was posted starts the only write, or the chain ends. -/
theorem runPosted (chain : session.OneChain) (some : session.posted ≠ 0)
    (ran : { session with posted := session.posted - 1 }.runPosted lowerBound = .ok (next, out)) :
    next.OneChain ∧ next.writes = if out = [] then 0 else 1 := by
  obtain ⟨⟨client, queue⟩, sent, rest⟩ := Outcome.bind_eq_ok.mp ran
  obtain ⟨taken, idle⟩ := chain.takePosted some
  simp only at rest
  split at rest
  · cases rest
    unfold OneChain checkShutdown
    split <;> exact ⟨by rw [taken, idle]; rfl, idle⟩
  · rename_i something
    cases rest
    have running := (chain.only (by omega)).2
    unfold OneChain
    rw [if_neg something]
    exact ⟨by rw [taken, idle, running]; rfl, by rw [idle]⟩

/-- After a write the chain goes on. -/
theorem onDataWrite (chain : session.OneChain) (some : session.writes ≠ 0) :
    { session with writes := session.writes - 1 }.onDataWrite.OneChain := by
  obtain ⟨posted, ended⟩ := chain.takeWrite some
  refine initWrite ?_
  unfold OneChain
  rw [posted, ended]
  rfl

/-- A write that fails ends it. -/
theorem onWriteError (chain : session.OneChain) (some : session.writes ≠ 0) (ec : ErrorCode) :
    ({ session with writes := session.writes - 1 }.onWriteError ec).OneChain := by
  obtain ⟨posted, ended⟩ := chain.takeWrite some
  unfold OneChain Session.onWriteError failed
  split <;> (rw [posted, ended]; rfl)

/-- The handlers of frames may start it. -/
theorem onDataRead (chain : session.OneChain) {around : Int → UInt8} {bytes : Bytes}
    (read : session.onDataRead around bytes = .ok next) : next.OneChain := by
  obtain ⟨⟨after, buffer⟩, handled, same⟩ := Outcome.bind_eq_ok.mp read
  cases same
  have kept : after.OneChain := @Reader.onRead_keeps _ _ OneChain
    ⟨fun _ _ chain _ => chain, fun _ _ chain _ => chain⟩
    (fun _ ec chain => chain.initiateDisconnect ec false) (fun _ chain => chain.initWrite)
    _ _ _ _ _ chain handled
  unfold initRead
  split <;> exact kept

/-- **A step.** Whatever happens, there is one chain at most. -/
theorem step (chain : session.OneChain)
    (stepped : (machine lowerBound).step session event = .ok (next, out)) : next.OneChain := by
  cases step_stepped stepped with
  | idle => exact chain
  | synced => exact chain
  | disconnect => exact chain.initiateDisconnect _ _
  | send => exact initWrite chain
  | ping => exact chain
  | settingsTimeout => exact chain
  | streamTimeout => exact chain
  | posted some ran => exact (chain.runPosted some ran).1
  | read _ read =>
      have taken : { session with reads := session.reads - 1 }.OneChain := chain
      exact taken.onDataRead read
  | readError =>
      unfold failed
      split <;> exact chain
  | written some => exact chain.onDataWrite some
  | writeError some => exact chain.onWriteError some _
  | disconnected => exact chain

end OneChain

/-- A session starts with one posted function. -/
theorem coInit_oneChain {start : Session} (opened : create.coInit = .ok start) :
    start.OneChain := by
  cases opened
  rfl

end Session

end H2pp.Http2

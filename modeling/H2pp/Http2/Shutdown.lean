import H2pp.Http2.ClientSession
import H2pp.Http2.Reactions
import H2pp.Http2.Responses

/-! # Shutdown

When a session is at rest after the start of a disconnection, all of it should be over:
the clean-up has run, the handler of the shutdown was called once, and no request waits
for its response. The disconnection is completed by the write chain, so this needs a
write chain that runs when the disconnection starts, and that is not started again.
-/

namespace H2pp.Http2

open Utils Hpack

namespace Stream

/-- A stream that is closed, or half closed, has called its handler. -/
def Settled (stream : Stream) : Prop :=
  stream.httpState = .halfClosed ∨ stream.httpState = .closed → stream.responseHandler = false

/-- What happens to a stream keeps its id, keeps it settled and adds no handler. -/
structure Steady (before after : Stream) : Prop where
  httpId : after.httpId = before.httpId
  waiting : after.responseHandler = true → before.responseHandler = true
  settled : before.Settled → after.Settled

private theorem Steady.refl (stream : Stream) : stream.Steady stream := ⟨rfl, id, id⟩

private theorem Steady.trans {first second third : Stream} (before : first.Steady second)
    (after : second.Steady third) : first.Steady third :=
  ⟨after.httpId.trans before.httpId, before.waiting ∘ after.waiting, after.settled ∘ before.settled⟩

private theorem steady_marked (stream : Stream) : stream.Steady stream.marked := ⟨rfl, id, id⟩

private theorem finished_responseHandler (stream : Stream) (ec : ErrorCode) :
    (stream.finished ec).responseHandler = false := by
  unfold finished
  split
  · rfl
  · rename_i called
    exact Bool.eq_false_of_not_eq_true called

/-- A frame that changes the state of a stream has the handler called. -/
theorem receive_ended (stream : Stream) (received : Received) :
    received.stateAfter stream.httpState = stream.httpState ∨
      (stream.receive received).responseHandler = false := by
  cases received with
  | data buff frame =>
      simp only [receive, onReceiveData, Received.stateAfter, Received.endsStream,
        decide_eq_true_eq]
      split
      · exact .inr (finished_responseHandler _ _)
      · exact .inl rfl
  | headers header flags rawSize =>
      simp only [receive, onReceiveHeaders, Received.stateAfter, Received.endsStream,
        decide_eq_true_eq]
      split
      · exact .inr (finished_responseHandler _ _)
      · exact .inl rfl
  | reset err => exact .inr (finished_responseHandler _ _)
  | cleanup ec => exact .inr (finished_responseHandler _ _)
  | _ => exact .inl rfl

/-- What a stream receives keeps it steady. -/
theorem receive_steady (stream : Stream) (received : Received) :
    stream.Steady (stream.receive received) := by
  have called (before : stream.responseHandler = false) :
      (stream.receive received).responseHandler = false :=
    (receive_called (And.intro before rfl : stream.Called stream.delivered) received).1
  refine ⟨receive_httpId stream received, fun waits => ?_, fun settled ended => ?_⟩
  · exact Bool.eq_true_of_not_eq_false fun before =>
      Bool.false_ne_true ((called before).symm.trans waits)
  · rcases receive_ended stream received with same | answered
    · rw [(receive_status stream received).1, same] at ended
      exact called (settled ended)
    · exact answered

variable {lowerBound : LowerBound} {stream : Stream} {encoder : Encoder} {limit : Nat} {turn : Turn}

/-- Sending keeps a stream steady. -/
theorem getTxData_steady (sent : stream.getTxData lowerBound encoder limit = .ok turn) :
    stream.Steady turn.stream := by
  have same : turn.stream.responseHandler = stream.responseHandler :=
    congrArg Mailbox.waiting (getTxData_mailbox sent)
  refine ⟨getTxData_httpId sent, same.symm.trans, fun settled ended => same.trans ?_⟩
  rcases getTxData_status sent with ⟨half, _⟩ | ⟨_, ⟨status, _⟩ | status⟩
  · exact settled (.inl half)
  · have state : turn.stream.httpState = stream.httpState := congrArg (·.2.2) status
    rw [state] at ended
    exact settled ended
  · have state : turn.stream.httpState = .opened := congrArg (·.2.2) status
    rw [state] at ended
    exact absurd ended (by decide)

end Stream

namespace StreamRegistry

variable {registry : StreamRegistry}

/-- Every stream whose handler waits is found under its id. -/
structure Answerable (registry : StreamRegistry) : Prop where
  settled : ∀ ptr, (registry.heap ptr).Settled
  mapped : ∀ ptr < registry.size, (registry.heap ptr).responseHandler = true →
    registry.getStream (registry.heap ptr).httpId = some ptr

/-- No handler waits. -/
def Answered (registry : StreamRegistry) : Prop :=
  ∀ ptr < registry.size, (registry.heap ptr).responseHandler = false

instance (registry : StreamRegistry) : Decidable registry.Answered :=
  inferInstanceAs (Decidable (∀ ptr < registry.size, _))

private theorem steady_update {heap : Nat → Stream} {ptr : Nat} {stream : Stream}
    (steady : (heap ptr).Steady stream) (other : Nat) :
    (heap other).Steady (Function.update heap ptr stream other) := by
  by_cases replaced : other = ptr
  · subst replaced
    rw [Function.update_self]
    exact steady
  · rw [Function.update_of_ne replaced]
    exact .refl _

/-- An id that is in the map stays there when another one is erased. -/
theorem lookup_filter_ne {entries : List (Nat × Nat)} {id other : Nat} (differs : other ≠ id) :
    (entries.filter (·.1 ≠ id)).lookup other = entries.lookup other := by
  induction entries with
  | nil => rfl
  | cons entry entries ih =>
      obtain ⟨key, value⟩ := entry
      by_cases kept : key = id
      · rw [List.filter_cons_of_neg (by simp only [kept, ne_eq, not_true, decide_false,
          Bool.false_eq_true, not_false_eq_true]), List.lookup_cons,
          beq_eq_false_iff_ne.mpr (kept ▸ differs)]
        exact ih
      · rw [List.filter_cons_of_pos (by exact decide_eq_true kept), List.lookup_cons,
          List.lookup_cons, ih]

/-- An empty registry. -/
theorem Answerable.create : StreamRegistry.create.Answerable where
  settled _ ended := nomatch ended
  mapped _ inside := absurd inside (Nat.not_lt_zero _)

private theorem Answerable.steady (answerable : registry.Answerable) {heap : Nat → Stream}
    {queue : List (Option Nat)} (steady : ∀ ptr, (registry.heap ptr).Steady (heap ptr)) :
    { registry with heap, queue }.Answerable where
  settled ptr := (steady ptr).settled (answerable.settled ptr)
  mapped ptr inside waits := by
    simp only [(steady ptr).httpId]
    exact answerable.mapped ptr inside ((steady ptr).waiting waits)

/-- A new stream is found if its id is free. -/
theorem Answerable.addStream (answerable : registry.Answerable) {id : Nat} {stream : Stream}
    (own : stream.httpId = id) (settled : stream.Settled)
    (free : registry.getStream id = none) : (registry.addStream id stream).Answerable := by
  have entries : (registry.addStream id stream).streamMap =
      (id, registry.size) :: registry.streamMap := by
    unfold getStream at free
    simp only [StreamRegistry.addStream, free, Option.isSome_none, Bool.false_eq_true, ↓reduceIte]
  refine ⟨fun ptr => ?_, fun ptr inside waits => ?_⟩
  · simp only [StreamRegistry.addStream]
    by_cases new : ptr = registry.size
    · rw [new, Function.update_self]
      exact settled
    · rw [Function.update_of_ne new]
      exact answerable.settled ptr
  · rw [getStream, entries, List.lookup_cons]
    simp only [StreamRegistry.addStream] at inside waits ⊢
    by_cases new : ptr = registry.size
    · rw [new, Function.update_self, own, BEq.rfl]
    · rw [Function.update_of_ne new] at waits ⊢
      have found := answerable.mapped ptr (by omega) waits
      have differs : (registry.heap ptr).httpId ≠ id := by
        rintro same
        rw [same, free] at found
        cases found
      rw [beq_eq_false_iff_ne.mpr differs]
      exact found

/-- A stream that is erased under the id it was found by does not wait. -/
theorem Answerable.erased (answerable : registry.Answerable) {id ptr : Nat}
    (found : registry.getStream id = some ptr)
    (called : (registry.heap ptr).responseHandler = false) (queue : List (Option Nat)) :
    { registry with streamMap := registry.streamMap.filter (·.1 ≠ id), queue }.Answerable := by
  refine ⟨answerable.settled, fun other inside waits => ?_⟩
  have mapped := answerable.mapped other inside waits
  have differs : (registry.heap other).httpId ≠ id := by
    rintro same
    rw [same, found] at mapped
    cases mapped
    exact Bool.false_ne_true (called.symm.trans waits)
  exact (lookup_filter_ne differs).trans mapped

/-- **Clean-up.** After `reset` no handler waits. -/
theorem Answerable.reset (answerable : registry.Answerable) (ec : ErrorCode) :
    (registry.reset ec).Answerable ∧ (registry.reset ec).Answered := by
  have answered : (registry.reset ec).Answered := by
    intro ptr inside
    simp only [StreamRegistry.reset]
    split
    · exact Stream.finished_responseHandler _ _
    · rename_i absent
      refine Bool.eq_false_of_not_eq_true fun waits => absent ?_
      obtain ⟨before, after, entries, _⟩ :=
        List.lookup_eq_some_iff.mp (answerable.mapped ptr inside waits)
      rw [entries]
      exact List.mem_map_of_mem (List.mem_append_right _ List.mem_cons_self)
  have settled (ptr : Nat) : ((registry.reset ec).heap ptr).Settled := by
    simp only [StreamRegistry.reset]
    split
    · exact fun _ => Stream.finished_responseHandler _ _
    · exact answerable.settled ptr
  exact ⟨⟨settled, fun ptr inside waits =>
    absurd waits (Bool.eq_false_iff.mp (answered ptr inside))⟩, answered⟩

end StreamRegistry

namespace Client

open StreamRegistry

variable {lowerBound : LowerBound} {client next : Client} {event : Event}

/-- Events other than sending keep waiting streams in the map, if a new one has an id
of its own. -/
theorem Changed.answerable {registry : StreamRegistry} (changed : Changed client event registry)
    (answerable : client.registry.Answerable)
    (free : ∀ request, event = .send request →
      client.registry.getStream client.nextStreamId = none) : registry.Answerable := by
  cases changed with
  | same => exact answerable
  | @added request connected => exact answerable.addStream rfl nofun (free request rfl)
  | @timeout ptr => exact answerable.steady (steady_update (Stream.receive_steady _ .timeout))
  | reset => exact (answerable.reset _).1
  | @erased _ id ptr received slots delivered found finished emptied =>
      have after := @Answerable.steady _ answerable _ client.registry.queue
        (steady_update (Stream.receive_steady (client.registry.heap ptr) received))
      refine after.erased found (after.settled ptr (.inr ?_)) slots
      simp only [Function.update_self]
      exact of_decide_eq_true finished
  | @received _ id ptr received delivered found unfinished unchecked =>
      exact answerable.steady (steady_update (Stream.receive_steady _ received))
  | @enqueued _ id ptr received delivered found unfinished checked =>
      exact answerable.steady (steady_update
        ((Stream.receive_steady _ received).trans (Stream.steady_marked _)))

/-- So does sending. -/
theorem getTxData_answerable {out : List Tx} (sent : client.getTxData lowerBound = .ok (next, out))
    (answerable : client.registry.Answerable) : next.registry.Answerable := by
  obtain ⟨_, _, ⟨same, _⟩ | ⟨_, final, ran, same, _⟩⟩ := getTxData_spec sent
  · rw [same]
    exact answerable
  · rw [same]
    refine answerable.steady (@Machine.run_invariant _ _ _ _ _ (fun _ _ => True)
      (fun history => ∀ ptr, (client.registry.heap ptr).Steady (history.state.heap ptr)) ?_ _ _ _
      (fun ptr => .refl _) (Machine.along_of_mem (fun _ _ => trivial) _) ran)
    intro history slot next steady _ taken ptr
    obtain ⟨state, frames, stepped, rfl⟩ := Machine.advance_eq_ok taken
    refine (steady ptr).trans ?_
    cases scheduler_spec stepped with
    | skipped _ => exact .refl _
    | again ready sent checked =>
        exact steady_update ((Stream.getTxData_steady sent).trans (Stream.steady_marked _)) ptr
    | once ready sent checked => exact steady_update (Stream.getTxData_steady sent) ptr

/-- What frames leave alone, apart from SETTINGS frames. -/
def Core.control (core : Core) : Bool × Bool × SettingsManager :=
  (core.isConnected, core.startDisconnect, core.settings)

/-- The handler of the settings was not called, or it was, without an error. -/
inductive HandlerAfter (before after : Bool) : Option ErrorCode → Prop
  | silent (same : after = before) : HandlerAfter before after none
  | called (waiting : before = true) (done : after = false) :
      HandlerAfter before after (some .success)

private theorem onSettingsFrame_handler (manager : SettingsManager) (frame : FrameAnalyzer) :
    HandlerAfter manager.settingsHandler (manager.onSettingsFrame frame).1.settingsHandler
      (manager.onSettingsFrame frame).2.2 := by
  by_cases ack : frame.flags &&& Flags.ack ≠ 0
  · simp only [SettingsManager.onSettingsFrame, SettingsManager.finished, if_pos ack]
    split
    · split
      · rename_i waiting
        exact .called waiting rfl
      · exact .silent rfl
    · exact .silent rfl
  · simp only [SettingsManager.onSettingsFrame, if_neg ack]
    exact .silent rfl

/-- What a frame does to the synchronisation of the settings. -/
theorem onReceiveFrame_control (client : Client) (data : Span) :
    (client.onReceiveFrame data).1.isConnected = client.isConnected ∧
      (client.onReceiveFrame data).1.startDisconnect = client.startDisconnect ∧
      HandlerAfter client.settings.settingsHandler
        (client.onReceiveFrame data).1.settings.settingsHandler
        (Session.settingsCalled client data) := by
  have core := (client.onReceiveFrame_changes data).core
  refine ⟨congrArg Core.isConnected core, congrArg Core.startDisconnect core, ?_⟩
  have settings : (client.onReceiveFrame data).1.settings =
      client.settingsAfter (.receiveFrame data) := congrArg Core.settings core
  rw [settings]
  simp only [settingsAfter, Session.settingsCalled]
  cases FrameAnalyzer.fromBuffer data with
  | error failure => exact .silent rfl
  | ok frame =>
      simp only
      cases FrameType.ofByte frame.typeByte with
      | none => exact .silent rfl
      | some type =>
          cases type with
          | settings => exact onSettingsFrame_handler _ _
          | _ => exact .silent rfl

/-- A frame whose handling is defined changes the streams as an event does. -/
theorem changed_of_caught {outcome : Client × Option Failure}
    (defined : outcome.2 ≠ some .undefinedBehaviour) (reacts : client.react event = caught outcome)
    (other : event ≠ .getTxData) : Changed client event outcome.1.registry := by
  obtain ⟨after, failure⟩ := outcome
  cases failure with
  | none => exact react_changed other reacts
  | some failure =>
      have code : caught (after, some failure) =
          .ok (after.initiateDisconnect (Reader.disconnectCode failure)) := by
        cases failure with
        | undefinedBehaviour => exact absurd rfl defined
        | _ => rfl
      have changed := react_changed other (reacts.trans code)
      rw [initiateDisconnect_registry] at changed
      exact changed

end Client

namespace Session

open StreamRegistry

variable {lowerBound : LowerBound} {session next : Session}

/-! ## The synchronisation of the settings -/

/-- What the coroutine is resumed with: nothing while the handler waits, and no error if
the session is connected. -/
structure Settling (session : Session) : Prop where
  pending : session.client.settings.settingsHandler = true → session.syncResult = none
  connected : session.client.isConnected = true → session.syncResult = some .success

/-- The synchronisation has failed. -/
def Refused (session : Session) : Prop :=
  ∃ ec, session.syncResult = some ec ∧ ec ≠ .success

/-- A step that has nothing to do with the synchronisation. -/
structure Aside (session next : Session) : Prop where
  syncResult : next.syncResult = session.syncResult
  isConnected : next.client.isConnected = session.client.isConnected
  settingsHandler : next.client.settings.settingsHandler = session.client.settings.settingsHandler

private theorem Settling.aside (settling : session.Settling) (aside : session.Aside next) :
    next.Settling where
  pending waiting := aside.syncResult.trans (settling.pending (aside.settingsHandler ▸ waiting))
  connected is := aside.syncResult.trans (settling.connected (aside.isConnected ▸ is))

private theorem Refused.aside (refused : session.Refused) (aside : session.Aside next) :
    next.Refused :=
  refused.imp fun _ ⟨failed, error⟩ => ⟨aside.syncResult.trans failed, error⟩

private theorem Refused.not_waiting (settling : session.Settling) (refused : session.Refused) :
    session.client.settings.settingsHandler = false := by
  obtain ⟨ec, failed, _⟩ := refused
  refine Bool.eq_false_of_not_eq_true fun waiting => ?_
  rw [settling.pending waiting] at failed
  cases failed

private theorem aside_of_control {client : Client}
    (same : client.core.control = session.client.core.control) :
    session.Aside { session with client } :=
  ⟨rfl, congrArg Prod.fst same, congrArg (·.2.2.settingsHandler) same⟩

private theorem initWrite_aside (session : Session) : session.Aside session.initWrite := by
  unfold initWrite
  split <;> exact ⟨rfl, rfl, rfl⟩

private theorem Aside.trans {middle : Session} (before : session.Aside middle)
    (after : middle.Aside next) :
    session.Aside next :=
  ⟨after.syncResult.trans before.syncResult, after.isConnected.trans before.isConnected,
    after.settingsHandler.trans before.settingsHandler⟩

private theorem initRead_aside (session : Session) : session.Aside session.initRead := by
  unfold initRead
  split <;> exact ⟨rfl, rfl, rfl⟩

/-- The handler of the settings is called, without an error or with one. -/
theorem Settling.handled (settling : session.Settling) {client : Client} {called : Option ErrorCode}
    (connected : client.isConnected = session.client.isConnected)
    (handled : called = none ∧
        client.settings.settingsHandler = session.client.settings.settingsHandler ∨
      session.client.settings.settingsHandler = true ∧
        client.settings.settingsHandler = false) :
    ({ session with client }.synced called).Settling := by
  rcases handled with ⟨rfl, same⟩ | ⟨waiting, done⟩
  · exact settling.aside ⟨rfl, connected, same⟩
  · have waits := settling.pending waiting
    refine ⟨fun still => absurd still (Bool.eq_false_iff.mp done), fun is => ?_⟩
    have resumed := settling.connected (connected.symm.trans is)
    rw [waits] at resumed
    cases resumed

/-! ## The end of the write chain -/

/-- What holds of the end of a session. When the write chain has ended for good, the
transport is disconnected once. -/
structure Ending (session : Session) : Prop where
  done : session.txRoutineDone = true →
    session.client.startDisconnect = true ∧ session.txRunning = false
  once : session.disconnects + session.shutdownCalls.length = if session.txRoutineDone then 1 else 0
  answerable : session.client.registry.Answerable
  cleaned : session.cleanups = session.shutdownCalls.length
  answered : session.shutdownCalls ≠ [] → session.client.registry.Answered

/-- While a disconnection is not complete, the write chain runs. -/
structure Sound (session : Session) : Prop extends Ending session where
  stopping : session.client.startDisconnect = true → session.txRoutineDone = false →
    session.txRunning = true

/-- The part of a session that this is about. -/
def endPart (session : Session) : (Client × Bool × Bool) × Nat × Nat × List ErrorCode :=
  ((session.client, session.txRunning, session.txRoutineDone), session.disconnects,
    session.cleanups, session.shutdownCalls)

private theorem Ending.congr (ending : session.Ending) (same : session.endPart = next.endPart) :
    next.Ending := by
  cases session
  cases next
  cases same
  exact ⟨ending.done, ending.once, ending.answerable, ending.cleaned, ending.answered⟩

private theorem Sound.congr (sound : session.Sound) (same : session.endPart = next.endPart) :
    next.Sound := by
  refine ⟨sound.toEnding.congr same, ?_⟩
  cases session
  cases next
  cases same
  exact sound.stopping

private theorem Ending.no_calls (ending : session.Ending) (undone : session.txRoutineDone = false) :
    session.disconnects = 0 ∧ session.shutdownCalls = [] := by
  have once := ending.once
  rw [undone] at once
  obtain ⟨none, silent⟩ := Nat.add_eq_zero_iff.mp once
  exact ⟨none, List.length_eq_zero_iff.mp silent⟩

private theorem Ending.undone_of_running (ending : session.Ending)
    (running : session.txRunning = true) :
    session.txRoutineDone = false :=
  Bool.eq_false_of_not_eq_true fun done =>
    Bool.false_ne_true ((ending.done done).2.symm.trans running)

private theorem Ending.undone_of_open (ending : session.Ending)
    (connected : session.client.startDisconnect = false) : session.txRoutineDone = false :=
  Bool.eq_false_of_not_eq_true fun done =>
    Bool.false_ne_true (connected.symm.trans (ending.done done).1)

/-- The client changes, but not whether it disconnects. -/
theorem Ending.withClient (ending : session.Ending) {client : Client}
    (same : client.startDisconnect = session.client.startDisconnect)
    (answerable : client.registry.Answerable)
    (answered : session.shutdownCalls ≠ [] → client.registry.Answered) :
    { session with client }.Ending :=
  ⟨fun done => (ending.done done).imp_left same.trans, ending.once, answerable, ending.cleaned,
    answered⟩

private theorem Sound.withClient (sound : session.Sound) {client : Client}
    (same : client.startDisconnect = session.client.startDisconnect)
    (answerable : client.registry.Answerable)
    (answered : session.shutdownCalls ≠ [] → client.registry.Answered) :
    { session with client }.Sound :=
  ⟨sound.toEnding.withClient same answerable answered, sound.stopping ∘ same.symm.trans⟩

/-- A disconnection starts. -/
theorem Ending.starting (ending : session.Ending) (undone : session.txRoutineDone = false)
    {client : Client} (same : client.registry = session.client.registry) :
    { session with client }.Ending :=
  ⟨fun done => absurd done (Bool.eq_false_iff.mp undone), ending.once, same ▸ ending.answerable,
    ending.cleaned, same ▸ ending.answered⟩

private theorem initWrite_txRoutineDone (session : Session) :
    session.initWrite.txRoutineDone = session.txRoutineDone := by
  unfold Session.initWrite
  split <;> rfl

private theorem initiateDisconnect_txRoutineDone (session : Session) (ec : ErrorCode)
    (handler : Bool) :
    (session.initiateDisconnect ec handler).txRoutineDone = session.txRoutineDone :=
  @initiateDisconnect_keeps session (fun next => next.txRoutineDone = session.txRoutineDone) ec
    handler (fun next same => (initWrite_txRoutineDone next).trans same) (fun _ _ => rfl)
    fun _ _ _ => rfl

/-- `init_write` sees to it that the chain runs. -/
theorem Ending.initWrite (ending : session.Ending) (undone : session.txRoutineDone = false) :
    session.initWrite.Sound := by
  unfold Session.initWrite
  split
  · rename_i running
    exact ⟨ending, fun _ _ => running⟩
  · exact ⟨⟨fun done => absurd done (Bool.eq_false_iff.mp undone), ending.once,
      ending.answerable, ending.cleaned, ending.answered⟩, fun _ _ => rfl⟩

private theorem Sound.initRead (sound : session.Sound) : session.initRead.Sound := by
  unfold Session.initRead
  split
  · exact sound
  · exact sound.congr rfl

/-! ## Steps of a session -/

/-- The synchronisation has failed, or the write chain is as it should be. -/
structure Held (session : Session) : Prop where
  settling : session.Settling
  sound : session.Sound ∨ session.Refused

private theorem Held.aside (held : session.Held) (aside : session.Aside next)
    (sound : session.Sound → next.Sound) : next.Held :=
  ⟨held.settling.aside aside, held.sound.imp sound (·.aside aside)⟩

/-- A step that ends with `init_write`. -/
theorem Held.initWrite (held : session.Held) (aside : session.Aside next)
    (ending : session.Sound → next.Ending) (undone : session.Sound → next.txRoutineDone = false) :
    next.initWrite.Held :=
  held.aside (aside.trans (initWrite_aside next)) fun sound =>
    (ending sound).initWrite (undone sound)

private theorem cancel_handler (manager : SettingsManager) (ec : ErrorCode) :
    (manager.cancel ec).2 = none ∧
        (manager.cancel ec).1.settingsHandler = manager.settingsHandler ∨
      manager.settingsHandler = true ∧ (manager.cancel ec).1.settingsHandler = false ∧
        (manager.cancel ec).2 = some ec := by
  simp only [SettingsManager.cancel, SettingsManager.finished]
  split
  · rename_i waiting
    exact .inr ⟨waiting, rfl, rfl⟩
  · exact .inl ⟨rfl, rfl⟩

private theorem onTimeout_handler (manager : SettingsManager) :
    manager.onTimeout.2 = none ∧ manager.onTimeout.1.settingsHandler = manager.settingsHandler ∨
      manager.settingsHandler = true ∧ manager.onTimeout.1.settingsHandler = false := by
  simp only [SettingsManager.onTimeout, SettingsManager.finished]
  split
  · split
    · rename_i waiting
      exact .inr ⟨waiting, rfl⟩
    · exact .inl ⟨rfl, rfl⟩
  · exact .inl ⟨rfl, rfl⟩

/-- `initiate_disconnect` starts the write chain, unless it makes the synchronisation
fail. -/
theorem Held.initiateDisconnect (held : session.Held) (ec : ErrorCode) (handler : Bool) :
    (session.initiateDisconnect ec handler).Held := by
  cases started : session.client.startDisconnect with
  | true =>
      simp only [Session.initiateDisconnect, started, ↓reduceIte]
      split
      · exact held.aside ⟨rfl, rfl, rfl⟩ fun sound => sound.congr rfl
      · exact held
  | false =>
      have core := (session.client.initiateDisconnect_changes ec).core
      have registry := Client.initiateDisconnect_registry session.client ec
      simp only [Session.initiateDisconnect, started, Bool.false_eq_true, ↓reduceIte]
      generalize session.client.initiateDisconnect ec = client at core registry
      have connected : client.isConnected = session.client.isConnected :=
        congrArg Client.Core.isConnected core
      have settings : client.settings = (session.client.settings.cancel ec).1 :=
        (congrArg Client.Core.settings core).trans (if_neg (Bool.eq_false_iff.mp started))
      have undone (sound : session.Sound) := sound.toEnding.undone_of_open started
      have ending (sound : session.Sound) : { session with client }.Ending :=
        sound.toEnding.starting (undone sound) registry
      rcases cancel_handler session.client.settings ec with ⟨silent, same⟩ | ⟨waiting, done, called⟩
      · rw [← settings] at same
        simp only [silent, Option.isSome_none, Bool.false_eq_true, ↓reduceIte]
        exact held.initWrite ⟨rfl, connected, same⟩ (fun sound => (ending sound).congr rfl) undone
      · rw [← settings] at done
        have settling : ({ session with client }.synced (some ec)).Settling :=
          held.settling.handled connected (.inr ⟨waiting, done⟩)
        have sound : session.Sound := held.sound.resolve_right fun refused =>
          Bool.false_ne_true ((refused.not_waiting held.settling).symm.trans waiting)
        simp only [called, Option.isSome_some, ↓reduceIte]
        split
        · exact ⟨settling.aside (initWrite_aside _),
            .inl (Ending.initWrite ((ending sound).congr rfl) (undone sound))⟩
        · rename_i error
          exact ⟨settling, .inr ⟨ec, rfl, error⟩⟩

/-- The client goes on before the write chain has ended. -/
theorem Sound.before_end (sound : session.Sound) (undone : session.txRoutineDone = false)
    {client : Client} (same : client.startDisconnect = session.client.startDisconnect)
    (answerable : client.registry.Answerable) : { session with client }.Sound :=
  sound.withClient same answerable fun called =>
    absurd (sound.toEnding.no_calls undone).2 called

/-- A frame is received before the write chain has ended. -/
theorem Held.onReceiveFrame (held : session.Held) (undone : session.txRoutineDone = false)
    {data : Span}
    (defined : (session.client.onReceiveFrame data).2 ≠ some .undefinedBehaviour) :
    ({ session with client := (session.client.onReceiveFrame data).1 }.synced
      (settingsCalled session.client data)).Held := by
  have changed : Client.Changed session.client (.receiveFrame data)
      (session.client.onReceiveFrame data).1.registry :=
    Client.changed_of_caught defined rfl nofun
  obtain ⟨connected, start, handled⟩ := session.client.onReceiveFrame_control data
  generalize settingsCalled session.client data = called at handled ⊢
  have sound (sound : session.Sound) :
      ({ session with client := (session.client.onReceiveFrame data).1 }.synced called).Sound :=
    (sound.before_end undone start (changed.answerable sound.answerable nofun)).congr rfl
  cases handled with
  | silent same => exact held.aside ⟨rfl, connected, same⟩ sound
  | called waiting done =>
      refine ⟨held.settling.handled connected (.inr ⟨waiting, done⟩), .inl (sound ?_)⟩
      exact held.sound.resolve_right fun refused =>
        Bool.false_ne_true ((refused.not_waiting held.settling).symm.trans waiting)

/-- A DATA frame is received before the write chain has ended. -/
theorem Held.onReceiveDataFrame (held : session.Held) (undone : session.txRoutineDone = false)
    {buff : Span}
    (defined : (session.client.onReceiveDataFrame buff).2 ≠ some .undefinedBehaviour) :
    { session with client := (session.client.onReceiveDataFrame buff).1 }.Held := by
  have changed : Client.Changed session.client (.receiveDataFrame buff)
      (session.client.onReceiveDataFrame buff).1.registry :=
    Client.changed_of_caught defined rfl nofun
  have control := congrArg Client.Core.control (session.client.onReceiveDataFrame_changes buff).core
  exact held.aside (aside_of_control control) fun sound =>
    sound.before_end undone (congrArg (·.2.1) control) (changed.answerable sound.answerable nofun)

/-- Bytes are read: none of a frame, or before the write chain has ended. -/
theorem Held.onDataRead (held : session.Held) {around : Int → UInt8} {bytes : Bytes}
    (orderly : session.txRoutineDone = true →
      (session.inputBuffer.commit bytes).data.length < headerSize)
    (read : session.onDataRead around bytes = .ok next) : next.Held := by
  obtain ⟨⟨after, inputBuffer⟩, dispatched, same⟩ := Outcome.bind_eq_ok.mp read
  cases same
  have stored : { after with inputBuffer }.Held := by
    suffices after.Held from this.aside ⟨rfl, rfl, rfl⟩ fun sound => sound.congr rfl
    cases undone : session.txRoutineDone with
    | true =>
        rw [Reader.onRead, if_pos (orderly undone)] at dispatched
        cases dispatched
        exact held
    | false =>
        exact (@Reader.onRead_keeps _ _
          (fun session => session.Held ∧ session.txRoutineDone = false)
          ⟨fun _ _ kept defined => ⟨kept.1.onReceiveFrame kept.2 defined, kept.2⟩,
            fun _ _ kept defined => ⟨kept.1.onReceiveDataFrame kept.2 defined, kept.2⟩⟩
          (fun _ ec kept => ⟨kept.1.initiateDisconnect ec false,
            (initiateDisconnect_txRoutineDone _ _ _).trans kept.2⟩)
          (fun session kept => ⟨kept.1.aside (initWrite_aside _) fun sound =>
            sound.toEnding.initWrite kept.2, (initWrite_txRoutineDone _).trans kept.2⟩)
          _ _ _ _ _ ⟨held, undone⟩ dispatched).1
  exact stored.aside (initRead_aside _) Sound.initRead

/-- The chain goes on with a write, or ends. At its end a disconnection that has started
is completed. -/
theorem Held.runPosted (held : session.Held) (running : session.txRunning = true) {out : List Tx}
    (ran : { session with posted := session.posted - 1 }.runPosted lowerBound = .ok (next, out)) :
    next.Held := by
  obtain ⟨⟨client, txQueue⟩, sent, rest⟩ := Outcome.bind_eq_ok.mp ran
  have control := congrArg Client.Core.control (Client.getTxData_core sent)
  have start : client.startDisconnect = session.client.startDisconnect :=
    congrArg (·.2.1) control
  have aside := aside_of_control control
  have undone (sound : session.Sound) := sound.toEnding.undone_of_running running
  have answerable (sound : session.Sound) := Client.getTxData_answerable sent sound.answerable
  have silent (sound : session.Sound) := sound.toEnding.no_calls (undone sound)
  simp only at rest
  split at rest
  · cases disconnecting : client.startDisconnect with
    | true =>
        rw [disconnecting] at rest
        cases rest
        refine held.aside ⟨rfl, aside.isConnected, aside.settingsHandler⟩ fun sound =>
          ⟨⟨fun _ => ⟨disconnecting, rfl⟩, ?_, answerable sound, sound.cleaned, ?_⟩,
            fun _ ended => nomatch ended⟩
        · simp only [checkShutdown, (silent sound).1, (silent sound).2, ↓reduceIte, List.length_nil]
        · exact fun called => absurd (silent sound).2 called
    | false =>
        rw [disconnecting] at rest
        cases rest
        refine held.aside ⟨rfl, aside.isConnected, aside.settingsHandler⟩ fun sound =>
          ⟨⟨fun done => absurd done (Bool.eq_false_iff.mp (undone sound)), sound.once,
            answerable sound, sound.cleaned, fun called => absurd (silent sound).2 called⟩,
            fun started => absurd started (Bool.eq_false_iff.mp disconnecting)⟩
  · cases rest
    exact held.aside ⟨rfl, aside.isConnected, aside.settingsHandler⟩ fun sound =>
      (sound.before_end (undone sound) start (answerable sound)).congr rfl

/-- After a write the chain goes on. -/
theorem Held.onDataWrite (held : session.Held) (running : session.txRunning = true) :
    { session with writes := session.writes - 1 }.onDataWrite.Held := by
  have undone (sound : session.Sound) := sound.toEnding.undone_of_running running
  refine held.initWrite ⟨rfl, rfl, rfl⟩ (fun sound => ?_) undone
  exact ⟨fun done => absurd done (Bool.eq_false_iff.mp (undone sound)), sound.once,
    sound.answerable, sound.cleaned, sound.answered⟩

/-- When the transport is disconnected, all handlers are called. -/
theorem Held.onDisconnected (held : session.Held) (some : session.disconnects ≠ 0) :
    { session with disconnects := session.disconnects - 1 }.onDisconnected.Held := by
  refine held.aside ⟨rfl, rfl, rfl⟩ fun sound => ?_
  obtain ⟨answerable, answered⟩ := sound.answerable.reset session.connectionErrorCode
  refine ⟨⟨sound.done, Eq.trans ?_ sound.once, answerable, ?_, fun _ => answered⟩,
    sound.stopping⟩
  · simp only [Session.onDisconnected, List.length_append, List.length_singleton]
    omega
  · simp only [Session.onDisconnected, List.length_append, List.length_singleton, sound.cleaned]

/-- A read fails while the write chain runs, or when a disconnection has started. -/
theorem Held.failed (held : session.Held) (ec : ErrorCode)
    (orderly : session.client.startDisconnect = true ∨ session.txRunning = true) :
    (session.failed ec).Held := by
  unfold Session.failed
  split
  · exact held
  · rename_i connected
    have running := orderly.resolve_left connected
    refine held.aside ⟨rfl, rfl, rfl⟩ fun sound => ⟨?_, fun _ _ => running⟩
    have starting : { session with
        client := { session.client with startDisconnect := true } }.Ending :=
      sound.toEnding.starting (sound.toEnding.undone_of_running running) rfl
    exact starting.congr rfl

/-- A request is accepted before the write chain has ended. -/
theorem Held.initiateSend (held : session.Held) {request : Request} {client : Client}
    (accepted : session.client.initiateSend request = .ok client)
    (undone : session.txRoutineDone = false)
    (free : session.client.registry.getStream session.client.nextStreamId = none) :
    { session with client }.initWrite.Held := by
  have changed : Client.Changed session.client (.send request) client.registry := by
    refine @Client.react_changed session.client client (.send request) nofun ?_
    rw [Client.react, accepted]
    rfl
  have control := congrArg Client.Core.control (Client.initiateSend_core accepted)
  refine held.initWrite (aside_of_control control) (fun sound => ?_) fun _ => undone
  exact (sound.before_end undone (congrArg (·.2.1) control)
    (changed.answerable sound.answerable fun _ _ => free)).toEnding

private theorem Held.ping (held : session.Held) {memory : Bytes} {client : Client}
    (reacted : session.client.react (.ping memory) = .ok client) :
    { session with client }.Held := by
  cases reacted
  simp only [Client.called, Client.initiatePing]
  split
  · rename_i accepted
    split at accepted
    · cases accepted
    · split at accepted
      · cases accepted
      · cases accepted
        exact held.aside ⟨rfl, rfl, rfl⟩ fun sound =>
          sound.withClient rfl sound.answerable sound.answered
  · exact held

private theorem Held.settingsTimeout (held : session.Held) {client : Client}
    (changed : session.client.react .settingsTimeout = .ok client) :
    ({ session with client }.synced session.client.settings.onTimeout.2).Held := by
  have control : client.core.control =
      (session.client.isConnected, session.client.startDisconnect,
        session.client.settings.onTimeout.1) := by
    cases changed
    exact congrArg Client.Core.control (Client.settingsDone_changes _ _).core
  have registry : client.registry = session.client.registry := by
    cases changed
    exact Client.withSettings_registry _ _ _
  have connected : client.isConnected = session.client.isConnected := congrArg Prod.fst control
  have handled := onTimeout_handler session.client.settings
  have settings : client.settings = session.client.settings.onTimeout.1 :=
    congrArg (·.2.2) control
  rw [← settings] at handled
  refine ⟨held.settling.handled connected handled, ?_⟩
  rcases held.sound with sound | refused
  · exact .inl ((sound.withClient (congrArg (·.2.1) control) (registry ▸ sound.answerable)
      (registry ▸ sound.answered)).congr rfl)
  · obtain ⟨silent, same⟩ := handled.resolve_right fun waiting =>
      Bool.false_ne_true ((refused.not_waiting held.settling).symm.trans waiting.1)
    rw [silent]
    exact .inr (refused.aside ⟨rfl, connected, same⟩)

private theorem Held.streamTimeout (held : session.Held) (ptr : Nat) :
    { session with client := { session.client with
        registry := session.client.registry.onTimeout ptr } }.Held := by
  have steady := steady_update (Stream.receive_steady (session.client.registry.heap ptr) .timeout)
  refine held.aside ⟨rfl, rfl, rfl⟩ fun sound =>
    sound.withClient rfl (sound.answerable.steady steady) fun called other inside => ?_
  refine Bool.eq_false_of_not_eq_true fun waits => ?_
  exact Bool.false_ne_true ((sound.answered called other inside).symm.trans
    ((steady other).waiting waits))

/-- The coroutine is resumed without an error. -/
theorem Held.onSynced (held : session.Held) (resumed : session.syncResult = some .success) :
    session.onSynced.Held := by
  have sound : session.Sound := by
    refine held.sound.resolve_right fun ⟨ec, failed, error⟩ => error ?_
    rw [resumed] at failed
    exact (Option.some.inj failed).symm
  have connected : { session with client := { session.client with isConnected := true } }.Sound :=
    sound.withClient rfl sound.answerable sound.answered
  exact ⟨⟨held.settling.pending, fun _ => resumed⟩, .inl (connected.congr rfl)⟩

/-! ## The end of a session -/

/-- Nothing is posted and nothing is under way. -/
def Quiescent (session : Session) : Prop :=
  session.posted = 0 ∧ session.reads = 0 ∧ session.writes = 0 ∧ session.disconnects = 0

instance (session : Session) : Decidable session.Quiescent := inferInstanceAs (Decidable (_ ∧ _))

/-- The session is over: the clean-up has run, the handler of the shutdown was called
once, and no request waits for its response. -/
structure ShutDown (session : Session) : Prop where
  cleaned : 0 < session.cleanups
  called : session.shutdownCalls.length = 1
  answered : session.client.registry.Answered

/-- An event in the order the shutdown relies on. No write fails. A read fails only while
the write chain runs, or after the start of a disconnection. After the end of the write
chain no frame is read and no request is accepted; and an accepted request has an id of
its own. -/
def Orderly (history : Machine.History Session Tx) : Event → Prop
  | .send _ => history.state.client.isConnected = true → history.state.txRoutineDone = false ∧
      history.state.client.registry.getStream history.state.client.nextStreamId = none
  | .read _ bytes => history.state.reads ≠ 0 → history.state.txRoutineDone = true →
      (history.state.inputBuffer.commit bytes).data.length < headerSize
  | .readError _ => history.state.reads ≠ 0 →
      history.state.client.startDisconnect = true ∨ history.state.txRunning = true
  | .writeError _ => history.state.writes = 0
  | _ => True

instance (history : Machine.History Session Tx) (event : Event) :
    Decidable (Orderly history event) := by
  unfold Orderly
  split <;> infer_instance

/-- **Steps of a session.** An orderly step keeps the write chain as it should be. -/
theorem held_step {history : Machine.History Session Tx} {event : Event} {out : List Tx}
    (chain : history.state.OneChain) (held : history.state.Held) (orderly : Orderly history event)
    (stepped : (machine lowerBound).step history.state event = .ok (next, out)) : next.Held := by
  cases step_stepped stepped with
  | idle => exact held
  | synced resumed => exact held.onSynced resumed
  | disconnect => exact held.initiateDisconnect _ _
  | send accepted =>
      obtain ⟨undone, free⟩ := orderly (Client.connected_of_initiateSend accepted)
      exact held.initiateSend accepted undone free
  | ping reacted => exact held.ping reacted
  | settingsTimeout reacted => exact held.settingsTimeout reacted
  | streamTimeout reacted =>
      cases reacted
      exact held.streamTimeout _
  | posted some ran => exact held.runPosted (chain.only (by omega)).2 ran
  | read some read =>
      have started : { history.state with reads := history.state.reads - 1 }.Held :=
        held.aside ⟨rfl, rfl, rfl⟩ fun sound => sound.congr rfl
      exact started.onDataRead (orderly some) read
  | readError some =>
      have started : { history.state with reads := history.state.reads - 1 }.Held :=
        held.aside ⟨rfl, rfl, rfl⟩ fun sound => sound.congr rfl
      exact started.failed _ (orderly some)
  | written some => exact held.onDataWrite (chain.only (by omega)).2
  | writeError some => exact absurd orderly some
  | disconnected some => exact held.onDisconnected some

private theorem coInit_held {start : Session} (opened : create.coInit = .ok start) :
    start.Held := by
  obtain ⟨client, synchronised, same⟩ := Outcome.bind_eq_ok.mp opened
  cases same
  cases synchronised
  refine ⟨⟨fun _ => rfl, nofun⟩, .inl ⟨⟨nofun, rfl, ?_, rfl, nofun⟩, nofun⟩⟩
  exact Answerable.create

/-- A session that is held is shut down when it is at rest after the start of a
disconnection. -/
theorem Held.shutDown (held : session.Held) (chain : session.OneChain)
    (connected : session.client.isConnected = true)
    (started : session.client.startDisconnect = true) (quiescent : session.Quiescent) :
    session.ShutDown := by
  obtain ⟨posted, _, writes, disconnects⟩ := quiescent
  have sound : session.Sound := by
    refine held.sound.resolve_right fun ⟨ec, failed, error⟩ => error ?_
    rw [held.settling.connected connected] at failed
    exact (Option.some.inj failed).symm
  have done : session.txRoutineDone = true := by
    refine Bool.eq_true_of_not_eq_false fun undone => ?_
    rw [OneChain, posted, writes, sound.stopping started undone] at chain
    cases chain
  have called : session.shutdownCalls.length = 1 := by
    have once := sound.once
    rw [disconnects, done, Nat.zero_add] at once
    exact once
  refine ⟨by rw [sound.cleaned, called]; exact Nat.one_pos, called, sound.answered ?_⟩
  intro none
  rw [none] at called
  cases called

/-- **Shutdown.** In every run of a session whose steps are orderly, a connected session
that is at rest after the start of a disconnection is shut down. -/
theorem shutdown_complete (lowerBound : LowerBound) (start : Session) (events : List Event)
    (last : Machine.History Session Tx) (opened : create.coInit = .ok start)
    (orderly : (machine lowerBound).Along Orderly ⟨start, []⟩ events)
    (ran : (machine lowerBound).run ⟨start, []⟩ events = .ok last)
    (connected : last.state.client.isConnected = true)
    (started : last.state.client.startDisconnect = true) (quiescent : last.state.Quiescent) :
    last.state.ShutDown := by
  have both : last.state.OneChain ∧ last.state.Held := by
    refine @Machine.run_invariant _ _ _ _ _ Orderly
      (fun history => history.state.OneChain ∧ history.state.Held) ?_ _ _ _
      ⟨coInit_oneChain opened, coInit_held opened⟩ orderly ran
    rintro history event next ⟨chain, held⟩ met taken
    obtain ⟨state, out, stepped, rfl⟩ := Machine.advance_eq_ok taken
    exact ⟨chain.step stepped, held_step chain held met stepped⟩
  exact both.2.shutDown both.1 connected started quiescent

/-- A session is connected: it reads the settings of the server and the acknowledgement
of its own. -/
def connection : List Event :=
  [.posted, .written, .posted,
    .read (fun _ => 0) [0, 0, 0, 4, 0, 0, 0, 0, 0, 0, 0, 0, 4, 1, 0, 0, 0, 0],
    .synced, .posted, .written, .posted]

/-- A new session runs over some events. -/
def runNew (events : List Event) : Except Failure (Session × Machine.History Session Tx) := do
  let start ← create.coInit
  let last ← (machine .linear).run ⟨start, []⟩ events
  .ok (start, last)

/-- The two parts of the run of a new session. -/
theorem runNew_ok {events : List Event} {start : Session} {last : Machine.History Session Tx}
    (ran : runNew events = .ok (start, last)) :
    create.coInit = .ok start ∧ (machine .linear).run ⟨start, []⟩ events = .ok last := by
  obtain ⟨first, opened, rest⟩ := Outcome.bind_eq_ok.mp ran
  obtain ⟨history, ran, same⟩ := Outcome.bind_eq_ok.mp rest
  cases same
  exact ⟨opened, ran⟩

/-- A request is sent, and the user disconnects. -/
def userDisconnects : List Event :=
  connection ++ [.send (Client.sampleRequest .get [] []), .disconnect, .posted, .written, .posted,
    .disconnected, .readError (.asio .notConnected)]

/-- The session is shut down, with an answer to the request. -/
theorem shutdown_complete_by_user :
    ∃ start last, create.coInit = .ok start ∧
      (machine .linear).run ⟨start, []⟩ userDisconnects = .ok last ∧
      last.state.client.startDisconnect = true ∧ last.state.Quiescent ∧ last.state.ShutDown := by
  have passes : (runNew userDisconnects).toOption.any (fun (start, last) => decide (
      (machine .linear).Along Orderly ⟨start, []⟩ userDisconnects ∧
      last.state.client.isConnected = true ∧ last.state.client.startDisconnect = true ∧
      last.state.Quiescent)) = true := by
    decide +kernel
  obtain ⟨⟨start, last⟩, both, checks⟩ := Outcome.exists_ok_of_any passes
  obtain ⟨opened, ran⟩ := runNew_ok both
  obtain ⟨orderly, connected, started, quiescent⟩ := of_decide_eq_true checks
  exact ⟨start, last, opened, ran, started, quiescent,
    shutdown_complete .linear start userDisconnects last opened orderly ran connected started
      quiescent⟩

/-- A request is sent, and the server closes the connection. -/
def serverCloses : List Event :=
  connection ++ [.send (Client.sampleRequest .get [] []), .posted, .written, .posted,
    .readError (.asio .notConnected)]

/-- The session is at rest without a clean-up; no handler is called, and the request
waits for its response. -/
theorem shutdown_missing :
    ∃ start last, create.coInit = .ok start ∧
      (machine .linear).run ⟨start, []⟩ serverCloses = .ok last ∧
      last.state.client.isConnected = true ∧ last.state.client.startDisconnect = true ∧
      last.state.Quiescent ∧ last.state.cleanups = 0 ∧ last.state.shutdownCalls = [] ∧
      0 < last.state.client.registry.size ∧
      (last.state.client.registry.heap 0).responseHandler = true := by
  have passes : (runNew serverCloses).toOption.any (fun (_, last) => decide (
      last.state.client.isConnected = true ∧ last.state.client.startDisconnect = true ∧
      last.state.Quiescent ∧ last.state.cleanups = 0 ∧ last.state.shutdownCalls = [] ∧
      0 < last.state.client.registry.size ∧
      (last.state.client.registry.heap 0).responseHandler = true)) = true := by
    decide +kernel
  obtain ⟨⟨start, last⟩, both, checks⟩ := Outcome.exists_ok_of_any passes
  obtain ⟨opened, ran⟩ := runNew_ok both
  exact ⟨start, last, opened, ran, of_decide_eq_true checks⟩

/-- After a write that fails nothing completes the disconnection either. -/
example : (runNew (connection ++ [.send (Client.sampleRequest .get [] []), .posted,
    .writeError (.asio .notConnected), .readError (.asio .notConnected)])).toOption.any
    (fun (_, last) => decide (last.state.client.startDisconnect = true ∧ last.state.Quiescent ∧
      last.state.shutdownCalls = [])) = true := by decide +kernel

/-- A frame that is read after the end of the write chain starts it again, and the
handler of the shutdown is called a second time. -/
example : (runNew (connection ++ [.disconnect, .posted, .written, .posted,
    .read (fun _ => 0) [0, 0, 0, 4, 1, 0, 0, 0, 0], .posted, .disconnected,
    .disconnected])).toOption.any
    (fun (_, last) => decide (last.state.Quiescent ∧ last.state.shutdownCalls.length = 2)) =
      true := by decide +kernel

end Session

end H2pp.Http2

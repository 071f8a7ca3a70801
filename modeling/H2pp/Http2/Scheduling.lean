import H2pp.Http2.BaseClient
import Mathlib.Data.List.Nodup
import Mathlib.Data.List.ReduceOption

/-! # Scheduling

What a step of the client can do to its streams, and what holds of the queue in every
run: a stream is in the queue at most once, because `check_tx_data` marks the streams it
lets in and only `get_tx_data` takes the mark away.
-/

namespace H2pp.Http2

open Utils Hpack

namespace Stream

variable {stream : Stream}

/-- The stream with the mark of those in the queue. -/
def marked (stream : Stream) : Stream := { stream with isScheduled := true }

/-- The mark is no part of what is sent. -/
theorem marked_sending (stream : Stream) : stream.marked.sending = stream.sending := rfl

/-- The flag of the queue is apart from the state. -/
theorem marked_httpState (stream : Stream) : stream.marked.httpState = stream.httpState := rfl

/-- A stream is to be queued if it has data to send and is not in the queue yet. -/
theorem checkTxData_fst (stream : Stream) :
    stream.checkTxData.1 = (!stream.isScheduled && stream.hasTxData) := by
  unfold checkTxData
  split
  · rename_i free
    exact free.symm
  · rename_i busy
    exact (Bool.eq_false_of_not_eq_true busy).symm

/-- A stream is let into the queue when it is not there and has something to send. -/
theorem checkTxData_true (checked : stream.checkTxData.1 = true) :
    stream.isScheduled = false ∧ stream.hasTxData = true ∧
      stream.checkTxData.2 = stream.marked := by
  unfold checkTxData at checked ⊢
  split at checked
  · rename_i free
    rw [Bool.and_eq_true, Bool.not_eq_true'] at free
    rw [if_pos (by rw [free.1, free.2]; rfl)]
    exact ⟨free.1, free.2, rfl⟩
  · cases checked

/-- A stream that is not to be queued stays as it is. -/
theorem checkTxData_false (checked : stream.checkTxData.1 = false) :
    stream.checkTxData.2 = stream := by
  unfold checkTxData at checked ⊢
  split at checked
  · cases checked
  · rename_i busy
    rw [if_neg busy]

/-- What of a stream the preparation of frames leaves alone. -/
def status (stream : Stream) : Nat × Bool × HttpState :=
  (stream.httpId, stream.isScheduled, stream.httpState)

variable {lowerBound : LowerBound} {encoder : Encoder} {limit : Nat} {turn : Turn}

private theorem HeadersPrepared.status_eq
    (prepared : HeadersPrepared lowerBound stream encoder limit turn) :
    turn.stream.status = stream.status := by
  cases prepared <;> rfl

private theorem bodyPhase_status {after : Turn} (sent : bodyPhase turn limit = .ok after) :
    after.stream.status = turn.stream.status := by
  rcases bodyPhase_stream sent with same | ⟨copied, same⟩
  · rw [same]
  · rw [same]
    rfl

/-- The headers leave the id, the mark and the state of the opened stream alone. -/
theorem headerPhase_status (sent : stream.headerPhase lowerBound encoder limit = .ok turn) :
    turn.stream.status = stream.opened.status := by
  obtain ⟨headers, prepared, same, _, _⟩ := headerPhase_spec sent
  rw [same]
  rcases prepared with ⟨_, prepared⟩ | ⟨_, rfl⟩
  · exact prepared.status_eq
  · rfl

/-- `get_tx_data` takes the mark away. It closes a stream that is half closed, and no
other. -/
theorem getTxData_status (sent : stream.getTxData lowerBound encoder limit = .ok turn) :
    stream.httpState = .halfClosed ∧ turn.stream.status = (stream.httpId, false, .closed) ∨
      stream.httpState ≠ .halfClosed ∧
        (turn.stream.status = (stream.httpId, false, stream.httpState) ∧ turn.out = [] ∨
          turn.stream.status = (stream.httpId, false, .opened)) := by
  rcases getTxData_spec sent with
    ⟨half, rfl⟩ | ⟨half, _, rfl⟩ | ⟨half, _, headers, body, first, second, rfl⟩
  · exact .inl ⟨half, rfl⟩
  · exact .inr ⟨half, .inl ⟨rfl, rfl⟩⟩
  · exact .inr ⟨half, .inr ((bodyPhase_status second).trans (headerPhase_status first))⟩

/-- A stream keeps its id when it sends. -/
theorem getTxData_httpId (sent : stream.getTxData lowerBound encoder limit = .ok turn) :
    turn.stream.httpId = stream.httpId := by
  rcases getTxData_status sent with ⟨_, same⟩ | ⟨_, ⟨same, _⟩ | same⟩ <;>
    exact congrArg Prod.fst same

/-- A stream that has had its turn is not marked any more. -/
theorem getTxData_isScheduled (sent : stream.getTxData lowerBound encoder limit = .ok turn) :
    turn.stream.isScheduled = false := by
  rcases getTxData_status sent with ⟨_, same⟩ | ⟨_, ⟨same, _⟩ | same⟩ <;>
    exact congrArg (·.2.1) same

/-- A stream that receives something keeps its id. -/
theorem receive_httpId (stream : Stream) (received : Received) :
    (stream.receive received).httpId = stream.httpId :=
  congrArg Sending.httpId (receive_sending stream received)

/-- A frame that ends the response. -/
def Received.endsStream : Received → Bool
  | .data _ frame => frame.flags &&& Flags.endStream ≠ 0
  | .headers _ flags _ => flags &&& Flags.endStream ≠ 0
  | _ => false

/-- The state of a stream after it has received something. -/
def Received.stateAfter (state : HttpState) : Received → HttpState
  | .reset _ => .closed
  | .cleanup _ => .closed
  | received => if received.endsStream then .halfClosed else state

/-- The bytes of a frame that the window of the stream counts. -/
def Received.rawSize : Received → Nat
  | .data buff _ => buff.size
  | .headers _ _ rawSize => rawSize
  | .continuation _ _ rawSize => rawSize
  | _ => 0

private theorem finished_localWindow (stream : Stream) (ec : ErrorCode) :
    (stream.finished ec).localWindow = stream.localWindow := by
  unfold finished
  split <;> rfl

/-- The window of a stream counts the frames that the stream receives. -/
theorem receive_localWindow (stream : Stream) (received : Received) :
    (stream.receive received).localWindow = stream.localWindow.dec received.rawSize := by
  cases received with
  | data buff frame =>
      simp only [receive, onReceiveData, Received.rawSize]
      split <;> split
      · exact finished_localWindow _ _
      · exact finished_localWindow _ _
      · rfl
      · rfl
  | headers header flags rawSize =>
      simp only [receive, onReceiveHeaders, Received.rawSize]
      split
      · exact finished_localWindow _ _
      · rfl
  | continuation header flags rawSize =>
      simp only [receive, onReceiveContinuation, Received.rawSize]
      split
      · exact finished_localWindow _ _
      · rfl
  | reset err => exact (finished_localWindow _ _).trans (DummyWindow.dec_zero _).symm
  | windowUpdate increment => exact (DummyWindow.dec_zero _).symm
  | cleanup ec => exact (finished_localWindow _ _).trans (DummyWindow.dec_zero _).symm
  | timeout =>
      refine Eq.trans ?_ (DummyWindow.dec_zero _).symm
      simp only [receive, onTimeout]
      split
      · exact finished_localWindow _ _
      · rfl
  | schedule =>
      refine Eq.trans ?_ (DummyWindow.dec_zero _).symm
      simp only [receive, checkTxData]
      split <;> rfl

/-- What a stream that receives something becomes. Only `check_tx_data` sets a mark. -/
theorem receive_status (stream : Stream) (received : Received) :
    (stream.receive received).httpState = received.stateAfter stream.httpState ∧
      (received ≠ .schedule → (stream.receive received).isScheduled = stream.isScheduled) := by
  have finished (stream : Stream) (ec : ErrorCode) :
      (stream.finished ec).httpState = stream.httpState ∧
        (stream.finished ec).isScheduled = stream.isScheduled := by
    unfold Stream.finished
    split <;> exact ⟨rfl, rfl⟩
  cases received with
  | data buff frame =>
      simp only [receive, onReceiveData, Received.stateAfter, Received.endsStream,
        decide_eq_true_eq]
      split <;> split
      · exact (finished _ _).imp_right fun same _ => same
      · exact (finished _ _).imp_right fun same _ => same
      · exact ⟨rfl, fun _ => rfl⟩
      · exact ⟨rfl, fun _ => rfl⟩
  | headers header flags rawSize =>
      simp only [receive, onReceiveHeaders, Received.stateAfter, Received.endsStream,
        decide_eq_true_eq]
      split
      · exact (finished _ _).imp_right fun same _ => same
      · exact ⟨rfl, fun _ => rfl⟩
  | reset err => exact (finished _ _).imp_right fun same _ => same
  | windowUpdate increment => exact ⟨rfl, fun _ => rfl⟩
  | continuation header flags rawSize =>
      simp only [receive, onReceiveContinuation]
      split
      · exact (finished _ _).imp_right fun same _ => same
      · exact ⟨rfl, fun _ => rfl⟩
  | cleanup ec => exact (finished _ _).imp_right fun same _ => same
  | timeout =>
      simp only [receive, onTimeout]
      split
      · exact (finished _ _).imp_right fun same _ => same
      · exact ⟨rfl, fun _ => rfl⟩
  | schedule =>
      refine ⟨?_, fun other => absurd rfl other⟩
      simp only [receive, checkTxData]
      split <;> rfl

end Stream

namespace StreamRegistry

/-- Streams with the same field, put in the same place. -/
theorem update_congr {α : Type} (field : Stream → α) {heap : Nat → Stream} {ptr : Nat}
    {first second : Stream} (same : field first = field second) (other : Nat) :
    field (Function.update heap ptr first other) =
      field (Function.update heap ptr second other) := by
  by_cases replaced : other = ptr
  · rw [replaced, Function.update_self, Function.update_self, same]
  · rw [Function.update_of_ne replaced, Function.update_of_ne replaced]

/-- A stream that is replaced by one with the same field. -/
theorem update_same {α : Type} (field : Stream → α) {heap : Nat → Stream} {ptr : Nat}
    {stream : Stream} (same : field stream = field (heap ptr)) (other : Nat) :
    field (Function.update heap ptr stream other) = field (heap other) := by
  rw [update_congr field same other, Function.update_eq_self]

/-- What a turn of `get_data` can do: skip a slot, or let a stream send. -/
inductive Served (lowerBound : LowerBound) (limit : Nat) (round : Round) :
    Option Nat → Round → List (Nat × OutFrame) → Prop
  | skipped {slot : Option Nat} (idle : ∀ ptr ∈ slot, (round.heap ptr).hasTxData = false) :
      Served lowerBound limit round slot round []
  | again {ptr : Nat} {turn : Turn} (ready : (round.heap ptr).hasTxData = true)
      (sent : (round.heap ptr).getTxData lowerBound round.encoder
        (sizeSub limit round.bytesUsed) = .ok turn)
      (checked : turn.stream.checkTxData.1 = true) :
      Served lowerBound limit round (some ptr)
        ⟨Function.update round.heap ptr turn.stream.marked, turn.encoder,
          round.bytesUsed + turn.used, round.nextQueue ++ [ptr]⟩
        (turn.out.map fun frame => (ptr, frame))
  | once {ptr : Nat} {turn : Turn} (ready : (round.heap ptr).hasTxData = true)
      (sent : (round.heap ptr).getTxData lowerBound round.encoder
        (sizeSub limit round.bytesUsed) = .ok turn)
      (checked : turn.stream.checkTxData.1 = false) :
      Served lowerBound limit round (some ptr)
        ⟨Function.update round.heap ptr turn.stream, turn.encoder, round.bytesUsed + turn.used,
          round.nextQueue⟩
        (turn.out.map fun frame => (ptr, frame))

/-- A step of the scheduler serves the stream in the slot, or skips it. -/
theorem scheduler_spec {lowerBound : LowerBound} {limit : Nat} {round next : Round}
    {slot : Option Nat} {out : List (Nat × OutFrame)}
    (stepped : (scheduler lowerBound limit).step round slot = .ok (next, out)) :
    Served lowerBound limit round slot next out := by
  cases slot with
  | none =>
      cases stepped
      exact .skipped fun _ member => nomatch member
  | some ptr =>
      simp only [scheduler] at stepped
      split at stepped
      · rename_i idle
        cases stepped
        rw [Bool.not_eq_true'] at idle
        exact .skipped fun _ member => Option.some.inj member ▸ idle
      · rename_i ready
        rw [Bool.not_eq_true', Bool.not_eq_false] at ready
        obtain ⟨turn, sent, same⟩ := Outcome.bind_eq_ok.mp stepped
        cases checked : turn.stream.checkTxData.1 with
        | true =>
            rw [checked, (Stream.checkTxData_true checked).2.2] at same
            cases same
            exact .again ready sent checked
        | false =>
            rw [checked, Stream.checkTxData_false checked] at same
            cases same
            exact .once ready sent checked

end StreamRegistry

namespace Client

/-- The limit that `get_tx_data` gives to the streams. -/
def streamLimit (client : Client) : Nat :=
  min (takeCommands client.txCommandQueue client.serverWindowSize).2.2
    client.settings.localSettings.maxFrameSize

/-- `get_tx_data` gets to the streams: all commands are sent, and the limit is not too
small. -/
def ServesStreams (client : Client) : Prop :=
  (takeCommands client.txCommandQueue client.serverWindowSize).2.1 = [] ∧
    2 * headerSize ≤ client.streamLimit

instance (client : Client) : Decidable client.ServesStreams :=
  inferInstanceAs (Decidable (_ ∧ _))

/-- The start of `get_data`. -/
def firstRound (client : Client) : Machine.History Round (Nat × OutFrame) :=
  ⟨⟨client.registry.heap, client.encoder, 0, []⟩, []⟩

/-- A call of `get_tx_data`. -/
def Event.sends : Event → Bool
  | .getTxData => true
  | _ => false

/-- `condition` holds before every turn of a stream in `get_tx_data`. -/
def Turns (lowerBound : LowerBound)
    (condition : Machine.History Round (Nat × OutFrame) → Option Nat → Prop)
    (client : Client) : Prop :=
  client.ServesStreams → (StreamRegistry.scheduler lowerBound client.streamLimit).Along condition
    client.firstRound client.registry.queue

instance (lowerBound : LowerBound)
    (condition : Machine.History Round (Nat × OutFrame) → Option Nat → Prop)
    [∀ history slot, Decidable (condition history slot)] (client : Client) :
    Decidable (client.Turns lowerBound condition) :=
  inferInstanceAs (Decidable (_ → _))

/-- The registry after the turns of `get_data`. -/
def withRound (registry : StreamRegistry) (round : Round) : StreamRegistry :=
  { registry with heap := round.heap, queue := round.nextQueue.map some }

/-- What is sent for the streams. -/
def streamTx (frames : List (Nat × OutFrame)) : List Tx :=
  frames.map fun entry => .frame entry.1 entry.2

/-- What `get_tx_data` does: it sends the commands that fit, and lets the streams have their
turns after all of them. -/
theorem getTxData_cases {lowerBound : LowerBound} {client next : Client} {out : List Tx}
    (sent : client.getTxData lowerBound = .ok (next, out)) :
    ∃ commands left window,
      takeCommands client.txCommandQueue client.serverWindowSize = (commands, left, window) ∧
      (¬ client.ServesStreams ∧
          next = { client with txCommandQueue := left, serverWindowSize := window } ∧
          out = commands.map Tx.command ∨
        client.ServesStreams ∧ ∃ final,
          (StreamRegistry.scheduler lowerBound client.streamLimit).run client.firstRound
            client.registry.queue = .ok final ∧
          next = { client with
            registry := withRound client.registry final.state
            encoder := final.state.encoder
            txCommandQueue := left
            serverWindowSize := sizeSub window final.state.bytesUsed } ∧
          out = commands.map Tx.command ++ streamTx final.emitted) := by
  unfold getTxData at sent
  rcases taken : takeCommands client.txCommandQueue client.serverWindowSize with
    ⟨commands, left, window⟩
  rw [taken] at sent
  refine ⟨commands, left, window, rfl, ?_⟩
  simp only at sent
  split at sent
  · rename_i more
    cases sent
    refine .inl ⟨fun serves => more ?_, rfl, rfl⟩
    have all := serves.1
    rw [taken] at all
    exact all
  · rename_i all
    rw [not_not] at all
    have limit : client.streamLimit = min window client.settings.localSettings.maxFrameSize := by
      rw [streamLimit, taken]
    rw [← limit] at sent
    split at sent
    · rename_i large
      obtain ⟨⟨registry, encoder, frames, used⟩, got, same⟩ := Outcome.bind_eq_ok.mp sent
      cases same
      unfold StreamRegistry.getData at got
      rw [if_neg (Nat.not_lt.mpr (Nat.le_trans (by decide) large))] at got
      obtain ⟨final, ran, rest⟩ := Outcome.bind_eq_ok.mp got
      cases rest
      exact .inr ⟨⟨by rw [taken]; exact all, large⟩, final, ran, rfl, rfl⟩
    · rename_i small
      cases sent
      exact .inl ⟨fun serves => small serves.2, rfl, rfl⟩

/-- What `get_tx_data` sends, and what it does to the streams. -/
theorem getTxData_spec {lowerBound : LowerBound} {client next : Client} {out : List Tx}
    (sent : client.getTxData lowerBound = .ok (next, out)) :
    ∃ commands : List Bytes, (client.txCommandQueue = [] → commands = []) ∧
      (next.registry = client.registry ∧ out = commands.map Tx.command ∨
        client.ServesStreams ∧ ∃ final,
          (StreamRegistry.scheduler lowerBound client.streamLimit).run client.firstRound
            client.registry.queue = .ok final ∧
          next.registry = withRound client.registry final.state ∧
          out = commands.map Tx.command ++ streamTx final.emitted) := by
  obtain ⟨commands, left, window, taken, rest⟩ := getTxData_cases sent
  refine ⟨commands, ?_, ?_⟩
  · intro none
    rw [none] at taken
    cases taken
    rfl
  · rcases rest with ⟨_, rfl, same⟩ | ⟨serves, final, ran, rfl, same⟩
    · exact .inl ⟨rfl, same⟩
    · exact .inr ⟨serves, final, ran, rfl, same⟩

/-- What an event other than sending can do to the streams. -/
inductive Changed (client : Client) : Event → StreamRegistry → Prop
  | same {event : Event} : Changed client event client.registry
  | added {request : Request} (connected : client.isConnected = true) :
      Changed client (.send request) (client.registry.addStream client.nextStreamId
        (Stream.create client.nextStreamId client.settings.remoteSettings.initialWindowSize
          client.settings.localSettings.initialWindowSize request))
  | timeout {ptr : Nat} : Changed client (.streamTimeout ptr) (client.registry.onTimeout ptr)
  | reset {ec : ErrorCode} : Changed client (.cleanup ec) (client.registry.reset ec)
  | erased {event : Event} {id ptr : Nat} {received : Stream.Received}
      {slots : List (Option Nat)}
      (delivered : client.delivery event = some (id, received))
      (found : client.registry.getStream id = some ptr)
      (finished : ((client.registry.heap ptr).receive received).isFinished = true)
      (emptied : StreamRegistry.resetSlot (Function.update client.registry.heap ptr
        ((client.registry.heap ptr).receive received)) id client.registry.queue = .ok slots) :
      Changed client event ⟨Function.update client.registry.heap ptr
        ((client.registry.heap ptr).receive received), client.registry.size,
        client.registry.streamMap.filter (·.1 ≠ id), slots⟩
  | received {event : Event} {id ptr : Nat} {received : Stream.Received}
      (delivered : client.delivery event = some (id, received))
      (found : client.registry.getStream id = some ptr)
      (unfinished : ((client.registry.heap ptr).receive received).isFinished = false)
      (unchecked : ((client.registry.heap ptr).receive received).checkTxData.1 = false) :
      Changed client event { client.registry with
        heap := Function.update client.registry.heap ptr
          ((client.registry.heap ptr).receive received) }
  | enqueued {event : Event} {id ptr : Nat} {received : Stream.Received}
      (delivered : client.delivery event = some (id, received))
      (found : client.registry.getStream id = some ptr)
      (unfinished : ((client.registry.heap ptr).receive received).isFinished = false)
      (checked : ((client.registry.heap ptr).receive received).checkTxData.1 = true) :
      Changed client event { client.registry with
        heap := Function.update client.registry.heap ptr
          ((client.registry.heap ptr).receive received).marked
        queue := client.registry.queue ++ [some ptr] }

/-- What frames give to streams. -/
theorem delivery_ne_schedule {client : Client} {event : Event} {id : Nat}
    {received : Stream.Received} (delivered : client.delivery event = some (id, received)) :
    received ≠ .schedule := by
  rintro rfl
  unfold delivery at delivered
  split at delivered
  · split at delivered
    · cases delivered
    · rename_i frame _
      cases type : FrameType.ofByte frame.typeByte with
      | none =>
          rw [type] at delivered
          cases delivered
      | some type' =>
          rw [type] at delivered
          change client.frameDelivery frame _ type' = _ at delivered
          unfold frameDelivery at delivered
          split at delivered
          · obtain ⟨_, _, same⟩ := Option.map_eq_some_iff.mp delivered
            cases same
          · cases delivered
          · split at delivered <;> cases delivered
          · obtain ⟨_, _, same⟩ := Option.map_eq_some_iff.mp delivered
            cases same
          · cases delivered
  · split at delivered <;> cases delivered
  · cases delivered

private theorem changed_of_deliver {client : Client} {event : Event} {registry : StreamRegistry}
    (delivered : client.registry.deliver (client.delivery event) = .ok registry) :
    Changed client event registry := by
  cases given : client.delivery event with
  | none =>
      rw [given] at delivered
      cases delivered
      exact .same
  | some delivery =>
      obtain ⟨id, received⟩ := delivery
      rw [given] at delivered
      change client.registry.invokeForStream id received = .ok registry at delivered
      unfold StreamRegistry.invokeForStream at delivered
      cases found : client.registry.getStream id with
      | none =>
          rw [found] at delivered
          cases delivered
          exact .same
      | some ptr =>
          rw [found] at delivered
          simp only at delivered
          split at delivered
          · rename_i finished
            obtain ⟨slots, emptied, same⟩ := Outcome.bind_eq_ok.mp delivered
            cases same
            exact .erased given found finished emptied
          · rename_i unfinished
            rw [Bool.not_eq_true] at unfinished
            cases checked : ((client.registry.heap ptr).receive received).checkTxData.1 with
            | true =>
                rw [checked, (Stream.checkTxData_true checked).2.2] at delivered
                cases delivered
                exact .enqueued given found unfinished checked
            | false =>
                rw [checked, Stream.checkTxData_false checked] at delivered
                cases delivered
                exact .received given found unfinished checked

/-- An event other than sending changes the streams in one of the ways above. -/
theorem react_changed {client next : Client} {event : Event} (sends : event ≠ .getTxData)
    (reacted : client.react event = .ok next) : Changed client event next.registry := by
  have after := react_registry sends reacted
  generalize next.registry = registry at after ⊢
  unfold registryAfter at after
  split at after
  · split at after
    · rename_i connected
      cases after
      exact .added connected
    · cases after
      exact .same
  · cases after
    exact .timeout
  · cases after
    exact .reset
  · exact changed_of_deliver after

/-- A step of the machine is a call of `get_tx_data` or a reaction. -/
theorem step_react {lowerBound : LowerBound} {client next : Client} {event : Event}
    {out : List Tx} (stepped : (machine lowerBound).step client event = .ok (next, out)) :
    event = .getTxData ∧ client.getTxData lowerBound = .ok (next, out) ∨
      event ≠ .getTxData ∧ out = [] ∧ client.react event = .ok next := by
  by_cases sends : event = .getTxData
  · subst sends
    exact .inl ⟨rfl, stepped⟩
  · have reacted : (do
        let next ← client.react event
        .ok (next, []) : Except Failure (Client × List Tx)) = .ok (next, out) := by
      rw [← stepped]
      cases event with
      | getTxData => exact absurd rfl sends
      | _ => rfl
    obtain ⟨after, changed, same⟩ := Outcome.bind_eq_ok.mp reacted
    cases same
    exact .inr ⟨sends, rfl, changed⟩

/-- A step of the client sends, or changes the streams and emits nothing. -/
theorem step_cases {lowerBound : LowerBound} {client next : Client} {event : Event}
    {out : List Tx} (stepped : (machine lowerBound).step client event = .ok (next, out)) :
    event = .getTxData ∧ client.getTxData lowerBound = .ok (next, out) ∨
      event ≠ .getTxData ∧ out = [] ∧ Changed client event next.registry :=
  (step_react stepped).imp_right fun ⟨sends, silent, reacted⟩ =>
    ⟨sends, silent, react_changed sends reacted⟩

end Client

/-! ## The queue -/

namespace StreamRegistry

/-- The streams in the queue. -/
def queued (registry : StreamRegistry) : List Nat := registry.queue.reduceOption

/-- What holds of the queue and of the map: the streams in the queue are marked and
there once, and the map leads to a stream with the id. -/
structure Scheduled (registry : StreamRegistry) : Prop where
  marked : ∀ ptr ∈ registry.queued, ptr < registry.size ∧ (registry.heap ptr).isScheduled = true
  once : registry.queued.Nodup
  mapped : ∀ id ptr, registry.getStream id = some ptr →
    ptr < registry.size ∧ (registry.heap ptr).httpId = id

/-- `erase` takes out of the queue what it finds. -/
theorem resetSlot_spec {heap : Nat → Stream} {id : Nat} {slots left : List (Option Nat)}
    (emptied : resetSlot heap id slots = .ok left) :
    left.reduceOption.Sublist slots.reduceOption ∧
      ∀ ptr, slots.reduceOption.Nodup →
        (∀ other ∈ slots.reduceOption, (heap other).httpId = id → other = ptr) →
        (heap ptr).httpId = id → ptr ∉ left.reduceOption := by
  induction slots generalizing left with
  | nil =>
      cases emptied
      exact ⟨List.Sublist.refl _, fun _ _ _ _ member => nomatch member⟩
  | cons slot slots ih =>
      cases slot with
      | none => cases emptied
      | some first =>
          unfold resetSlot at emptied
          rw [List.reduceOption_cons_of_some]
          split at emptied
          · rename_i found
            cases emptied
            rw [List.reduceOption_cons_of_none]
            refine ⟨List.sublist_cons_self _ _, fun ptr once unique _ => ?_⟩
            rw [← unique first List.mem_cons_self found]
            exact (List.nodup_cons.mp once).1
          · rename_i other
            obtain ⟨rest, found, same⟩ := Outcome.bind_eq_ok.mp emptied
            cases same
            obtain ⟨sublist, gone⟩ := ih found
            rw [List.reduceOption_cons_of_some]
            refine ⟨sublist.cons_cons first, fun ptr once unique id => ?_⟩
            rw [List.mem_cons, not_or]
            refine ⟨fun same => other (same ▸ id), gone ptr (List.nodup_cons.mp once).2 ?_ id⟩
            exact fun other member => unique other (List.mem_cons_of_mem _ member)

/-- `erase` leaves the streams with other ids in the queue. -/
theorem resetSlot_keeps {heap : Nat → Stream} {id ptr : Nat} {slots left : List (Option Nat)}
    (emptied : resetSlot heap id slots = .ok left) (differs : (heap ptr).httpId ≠ id)
    (member : ptr ∈ slots.reduceOption) : ptr ∈ left.reduceOption := by
  induction slots generalizing left with
  | nil => cases member
  | cons slot slots ih =>
      cases slot with
      | none => cases emptied
      | some first =>
          unfold resetSlot at emptied
          rw [List.reduceOption_cons_of_some, List.mem_cons] at member
          split at emptied
          · rename_i found
            cases emptied
            exact member.resolve_left fun same => differs (same ▸ found)
          · obtain ⟨rest, found, same⟩ := Outcome.bind_eq_ok.mp emptied
            cases same
            rw [List.reduceOption_cons_of_some, List.mem_cons]
            exact member.imp_right (ih found)

/-- Removing an id leaves the other ids where they were. -/
theorem lookup_filter {entries : List (Nat × Nat)} {id other ptr : Nat}
    (found : (entries.filter (·.1 ≠ id)).lookup other = some ptr) :
    other ≠ id ∧ entries.lookup other = some ptr := by
  induction entries with
  | nil => cases found
  | cons entry entries ih =>
      obtain ⟨key, value⟩ := entry
      by_cases kept : key = id
      · rw [List.filter_cons_of_neg (by simp only [kept, ne_eq, not_true, decide_false,
          Bool.false_eq_true, not_false_eq_true])] at found
        obtain ⟨differs, later⟩ := ih found
        refine ⟨differs, ?_⟩
        rw [List.lookup_cons, beq_eq_false_iff_ne.mpr (kept ▸ differs)]
        exact later
      · rw [List.filter_cons_of_pos (by exact decide_eq_true kept),
          List.lookup_cons] at found
        rw [List.lookup_cons]
        cases same : other == key with
        | true =>
            rw [same] at found
            exact ⟨fun equal => kept ((eq_of_beq same).symm.trans equal), found⟩
        | false =>
            rw [same] at found
            exact ih found

variable {lowerBound : LowerBound} {limit : Nat}

/-- The same during a round, for the streams that have had their turn and those that
are still to come. -/
structure RoundScheduled (registry : StreamRegistry) (round : Round)
    (remaining : List (Option Nat)) : Prop where
  marked : ∀ ptr ∈ round.nextQueue ++ remaining.reduceOption,
    ptr < registry.size ∧ (round.heap ptr).isScheduled = true
  once : (round.nextQueue ++ remaining.reduceOption).Nodup
  ids : ∀ ptr, (round.heap ptr).httpId = (registry.heap ptr).httpId
  waiting : ∀ ptr, ptr ∈ remaining.reduceOption ∨ ptr ∉ registry.queued →
    round.heap ptr = registry.heap ptr
  members : ∀ ptr ∈ round.nextQueue ++ remaining.reduceOption, ptr ∈ registry.queued

private theorem Scheduled.firstRound {registry : StreamRegistry} (scheduled : registry.Scheduled)
    (encoder : Encoder) :
    registry.RoundScheduled ⟨registry.heap, encoder, 0, []⟩ registry.queue where
  marked := scheduled.marked
  once := scheduled.once
  ids _ := rfl
  waiting _ _ := rfl
  members _ := id

/-- The streams that have no turn stay as they are. -/
theorem RoundScheduled.others {registry : StreamRegistry} {round : Round} {ptr : Nat}
    {remaining : List (Option Nat)}
    (scheduled : registry.RoundScheduled round (some ptr :: remaining)) (stream : Stream) :
    ptr < registry.size ∧ ptr ∈ registry.queued ∧
      (round.nextQueue ++ remaining.reduceOption).Nodup ∧
      (∀ other ∈ round.nextQueue ++ remaining.reduceOption, other < registry.size ∧
        (Function.update round.heap ptr stream other).isScheduled = true) ∧
      ∀ other, other ∈ remaining.reduceOption ∨ other ∉ registry.queued →
        Function.update round.heap ptr stream other = registry.heap other := by
  obtain ⟨marked, once, _, waiting, members⟩ := scheduled
  rw [List.reduceOption_cons_of_some] at marked once waiting members
  obtain ⟨fresh, once⟩ := List.nodup_cons.mp (List.nodup_middle.mp once)
  have own : ptr ∈ round.nextQueue ++ ptr :: remaining.reduceOption :=
    List.mem_append_right _ List.mem_cons_self
  refine ⟨(marked ptr own).1, members ptr own, once, fun other member => ?_,
    fun other untouched => ?_⟩
  · have differs : other ≠ ptr := fun same => fresh (same ▸ member)
    rw [Function.update_of_ne differs]
    exact marked other (List.mem_append.mpr ((List.mem_append.mp member).imp_right
      (List.mem_cons_of_mem ptr)))
  · rw [Function.update_of_ne ?_, waiting other (untouched.imp_left (List.mem_cons_of_mem ptr))]
    rintro rfl
    exact untouched.elim (fun member => fresh (List.mem_append_right _ member))
      fun absent => absent (members other own)

/-- A turn keeps the streams in the queue marked and there once. -/
theorem RoundScheduled.served {registry : StreamRegistry} {round next : Round}
    {slot : Option Nat} {remaining : List (Option Nat)} {out : List (Nat × OutFrame)}
    (scheduled : registry.RoundScheduled round (slot :: remaining))
    (served : Served lowerBound limit round slot next out) :
    registry.RoundScheduled next remaining := by
  have sameIds {ptr : Nat} {stream : Stream} (same : stream.httpId = (round.heap ptr).httpId) :
      ∀ other, (Function.update round.heap ptr stream other).httpId =
        (registry.heap other).httpId :=
    fun other => (update_same Stream.httpId same other).trans (scheduled.ids other)
  have fewer : (round.nextQueue ++ remaining.reduceOption).Sublist
      (round.nextQueue ++ (slot :: remaining).reduceOption) := by
    refine List.Sublist.append_left ?_ _
    cases slot with
    | none => exact List.Sublist.refl _
    | some ptr => exact List.sublist_cons_self _ _
  have members := fun ptr member => scheduled.members ptr (fewer.subset member)
  cases served with
  | skipped _ =>
      refine ⟨fun ptr member => scheduled.marked ptr (fewer.subset member),
        scheduled.once.sublist fewer, scheduled.ids, fun ptr untouched => ?_, members⟩
      refine scheduled.waiting ptr (untouched.imp_left fun member => ?_)
      cases slot with
      | none => exact member
      | some ptr => exact List.mem_cons_of_mem _ member
  | @again ptr turn ready sent checked =>
      obtain ⟨inside, queued, _, others, waiting⟩ := scheduled.others turn.stream.marked
      have split {other : Nat}
          (member : other ∈ (round.nextQueue ++ [ptr]) ++ remaining.reduceOption) :
          other = ptr ∨ other ∈ round.nextQueue ++ remaining.reduceOption := by
        rw [List.append_assoc, List.mem_append, List.mem_append, List.mem_singleton] at member
        rw [List.mem_append]
        exact or_left_comm.mp member
      refine ⟨fun other member => ?_, ?_, sameIds (Stream.getTxData_httpId sent), waiting,
        fun other member => ?_⟩
      · rcases split member with rfl | earlier
        · exact ⟨inside, by simp only [Function.update_self, Stream.marked]⟩
        · exact others other earlier
      · rw [List.append_assoc]
        exact scheduled.once
      · exact (split member).elim (fun same => same ▸ queued) (members other)
  | @once ptr turn ready sent checked =>
      obtain ⟨_, _, once, others, waiting⟩ := scheduled.others turn.stream
      exact ⟨others, once, sameIds (Stream.getTxData_httpId sent), waiting, members⟩

/-- An empty registry. -/
theorem Scheduled.create : StreamRegistry.create.Scheduled where
  marked _ member := nomatch member
  once := List.nodup_nil
  mapped _ _ found := nomatch found

/-- A new stream is found under its id, and no other under another id. -/
theorem getStream_addStream {registry : StreamRegistry} {id other ptr : Nat} {stream : Stream}
    (found : (registry.addStream id stream).getStream other = some ptr) :
    registry.getStream other = some ptr ∨ other = id ∧ ptr = registry.size := by
  simp only [getStream, addStream] at found ⊢
  split at found
  · exact .inl found
  · rw [List.lookup_cons] at found
    cases same : other == id with
    | true =>
        rw [same] at found
        cases found
        exact .inr ⟨eq_of_beq same, rfl⟩
    | false =>
        rw [same] at found
        exact .inl found

/-- A new stream is marked, and is put into the queue. -/
theorem Scheduled.addStream {registry : StreamRegistry} (scheduled : registry.Scheduled)
    {id : Nat} {stream : Stream} (own : stream.httpId = id) (marked : stream.isScheduled = true) :
    (registry.addStream id stream).Scheduled := by
  have queue : (registry.addStream id stream).queued = registry.queued ++ [registry.size] :=
    List.reduceOption_append _ _
  refine ⟨?_, ?_, ?_⟩
  · intro ptr member
    rw [queue, List.mem_append, List.mem_singleton] at member
    simp only [StreamRegistry.addStream]
    rcases member with earlier | rfl
    · obtain ⟨inside, marked⟩ := scheduled.marked ptr earlier
      rw [Function.update_of_ne (Nat.ne_of_lt inside)]
      exact ⟨Nat.lt_succ_of_lt inside, marked⟩
    · rw [Function.update_self]
      exact ⟨Nat.lt_succ_self _, marked⟩
  · rw [queue]
    refine List.nodup_append.mpr ⟨scheduled.once, List.nodup_singleton _, ?_⟩
    intro ptr member last
    rw [List.mem_singleton]
    rintro rfl rfl
    exact Nat.lt_irrefl _ (scheduled.marked _ member).1
  · intro other ptr found
    simp only [StreamRegistry.addStream]
    rcases getStream_addStream found with earlier | ⟨rfl, rfl⟩
    · obtain ⟨inside, same⟩ := scheduled.mapped other ptr earlier
      rw [Function.update_of_ne (Nat.ne_of_lt inside)]
      exact ⟨Nat.lt_succ_of_lt inside, same⟩
    · rw [Function.update_self]
      exact ⟨Nat.lt_succ_self _, own⟩

/-- A stream is replaced by one with the same id that has not lost its mark. -/
theorem Scheduled.update {registry : StreamRegistry} (scheduled : registry.Scheduled) {ptr : Nat}
    {stream : Stream} (same : stream.httpId = (registry.heap ptr).httpId)
    (marked : (registry.heap ptr).isScheduled = true → stream.isScheduled = true) :
    { registry with heap := Function.update registry.heap ptr stream }.Scheduled := by
  refine ⟨fun other member => ?_, scheduled.once, fun id other found => ?_⟩
  · obtain ⟨inside, mark⟩ := scheduled.marked other member
    refine ⟨inside, ?_⟩
    by_cases replaced : other = ptr
    · subst replaced
      simp only [Function.update_self]
      exact marked mark
    · simp only [Function.update_of_ne replaced]
      exact mark
  · obtain ⟨inside, named⟩ := scheduled.mapped id other found
    exact ⟨inside, (update_same Stream.httpId same other).trans named⟩

/-- A stream that is not marked is put into the queue, with a mark. -/
theorem Scheduled.enqueue {registry : StreamRegistry} (scheduled : registry.Scheduled)
    {ptr : Nat} {stream : Stream} (same : stream.httpId = (registry.heap ptr).httpId)
    (inside : ptr < registry.size) (unmarked : (registry.heap ptr).isScheduled = false)
    (marked : stream.isScheduled = true) :
    { registry with
      heap := Function.update registry.heap ptr stream
      queue := registry.queue ++ [some ptr] }.Scheduled := by
  obtain ⟨marks, once, mapped⟩ := scheduled.update same fun _ => marked
  refine ⟨fun other member => ?_, ?_, mapped⟩
  · rw [queued, List.reduceOption_append, List.mem_append] at member
    rcases member with earlier | last
    · exact marks other earlier
    · obtain rfl : other = ptr := List.mem_singleton.mp last
      exact ⟨inside, by simp only [Function.update_self, marked]⟩
  · rw [queued, List.reduceOption_append]
    refine List.nodup_append.mpr ⟨once, List.nodup_singleton _, ?_⟩
    intro other member last single
    obtain rfl : last = ptr := List.mem_singleton.mp single
    rintro rfl
    exact Bool.false_ne_true (unmarked.symm.trans (scheduled.marked other member).2)

/-- Fewer streams in the queue and in the map. -/
theorem Scheduled.fewer {registry : StreamRegistry} (scheduled : registry.Scheduled)
    {streamMap : List (Nat × Nat)} {queue : List (Option Nat)}
    (sublist : queue.reduceOption.Sublist registry.queued)
    (mapped : ∀ id ptr, streamMap.lookup id = some ptr → registry.getStream id = some ptr) :
    { registry with streamMap, queue }.Scheduled where
  marked ptr member := scheduled.marked ptr (sublist.subset member)
  once := scheduled.once.sublist sublist
  mapped id ptr found := scheduled.mapped id ptr (mapped id ptr found)

end StreamRegistry

namespace Client

open StreamRegistry

variable {lowerBound : LowerBound} {client next : Client} {event : Event}

/-- An event other than sending keeps the queue as it should be. -/
theorem Changed.scheduled {registry : StreamRegistry} (changed : Changed client event registry)
    (scheduled : client.registry.Scheduled) : registry.Scheduled := by
  cases changed with
  | same => exact scheduled
  | added connected => exact scheduled.addStream rfl rfl
  | @timeout ptr =>
      obtain ⟨_, marked⟩ := Stream.receive_status (client.registry.heap ptr) .timeout
      exact scheduled.update (Stream.receive_httpId _ .timeout) (marked nofun).trans
  | reset =>
      exact ⟨fun _ member => (nomatch member), List.nodup_nil, fun _ _ found => nomatch found⟩
  | @erased _ id ptr received slots delivered found finished emptied =>
      obtain ⟨_, marked⟩ := Stream.receive_status (client.registry.heap ptr) received
      exact (scheduled.update (Stream.receive_httpId _ received)
        (marked (delivery_ne_schedule delivered)).trans).fewer
        (resetSlot_spec emptied).1 fun other ptr found => (lookup_filter found).2
  | @received _ id ptr received delivered found unfinished unchecked =>
      obtain ⟨_, marked⟩ := Stream.receive_status (client.registry.heap ptr) received
      exact scheduled.update (Stream.receive_httpId _ received)
        (marked (delivery_ne_schedule delivered)).trans
  | @enqueued _ id ptr received delivered found unfinished checked =>
      obtain ⟨_, marked⟩ := Stream.receive_status (client.registry.heap ptr) received
      refine scheduled.enqueue (Stream.receive_httpId _ received) (scheduled.mapped id ptr found).1
        ((marked (delivery_ne_schedule delivered)).symm.trans
          (Stream.checkTxData_true checked).1) rfl

section Rounds

variable {registry : StreamRegistry} {encoder : Encoder} {limit : Nat}
  {invariant : Machine.History Round (Nat × OutFrame) → List (Option Nat) → Prop}
  {final : Machine.History Round (Nat × OutFrame)}

/-- What holds after a round of turns, when it was kept at every turn that meets the
condition. It may speak of the slots that are still to come. -/
theorem run_turns {condition : Machine.History Round (Nat × OutFrame) → Option Nat → Prop}
    (scheduled : registry.Scheduled)
    (keeps : ∀ history slot remaining next out,
      registry.RoundScheduled history.state (slot :: remaining) →
      invariant history (slot :: remaining) → condition history slot →
      Served lowerBound limit history.state slot next out →
      invariant ⟨next, history.emitted ++ out⟩ remaining)
    (start : invariant ⟨⟨registry.heap, encoder, 0, []⟩, []⟩ registry.queue)
    (along : (scheduler lowerBound limit).Along condition
      ⟨⟨registry.heap, encoder, 0, []⟩, []⟩ registry.queue)
    (ran : (scheduler lowerBound limit).run ⟨⟨registry.heap, encoder, 0, []⟩, []⟩
      registry.queue = .ok final) :
    registry.RoundScheduled final.state [] ∧ invariant final [] := by
  refine @Machine.run_remaining _ _ _ _ _ condition (fun history remaining =>
    registry.RoundScheduled history.state remaining ∧ invariant history remaining) ?_ _ _ _
    ⟨scheduled.firstRound _, start⟩ along ran
  rintro history slot remaining next ⟨rounds, holds⟩ met taken
  obtain ⟨state, out, stepped, rfl⟩ := Machine.advance_eq_ok taken
  have served := scheduler_spec stepped
  exact ⟨rounds.served served, keeps history slot remaining state out rounds holds met served⟩

/-- What holds after a round of turns, when it was kept at every turn. -/
theorem run_all_turns (scheduled : registry.Scheduled)
    (keeps : ∀ history slot remaining next out,
      registry.RoundScheduled history.state (slot :: remaining) →
      invariant history (slot :: remaining) →
      Served lowerBound limit history.state slot next out →
      invariant ⟨next, history.emitted ++ out⟩ remaining)
    (start : invariant ⟨⟨registry.heap, encoder, 0, []⟩, []⟩ registry.queue)
    (ran : (scheduler lowerBound limit).run ⟨⟨registry.heap, encoder, 0, []⟩, []⟩
      registry.queue = .ok final) :
    registry.RoundScheduled final.state [] ∧ invariant final [] :=
  run_turns scheduled (fun history slot remaining next out rounds holds _ =>
    keeps history slot remaining next out rounds holds) start
    (Machine.along_of_mem (fun _ _ => trivial) _) ran

end Rounds

/-- After a round the streams are in the queue that were put into that of the next. -/
theorem queued_withRound (registry : StreamRegistry) (round : Round) :
    (withRound registry round).queued =
      round.nextQueue ++ ([] : List (Option Nat)).reduceOption := by
  rw [List.reduceOption_nil, List.append_nil]
  exact (List.filterMap_map ..).trans (List.filterMap_some ..)

/-- After a round the queue is that of the round. -/
theorem scheduled_withRound {registry : StreamRegistry} {round : Round}
    (scheduled : registry.Scheduled) (rounds : registry.RoundScheduled round []) :
    (withRound registry round).Scheduled := by
  have queue := queued_withRound registry round
  refine ⟨fun ptr member => rounds.marked ptr (queue ▸ member), queue ▸ rounds.once, ?_⟩
  intro id ptr found
  obtain ⟨inside, named⟩ := scheduled.mapped id ptr found
  exact ⟨inside, (rounds.ids ptr).trans named⟩

/-- **The queue.** A step keeps the streams in the queue marked and there once. -/
theorem scheduled_step {out : List Tx} (scheduled : client.registry.Scheduled)
    (stepped : (machine lowerBound).step client event = .ok (next, out)) :
    next.registry.Scheduled := by
  rcases step_cases stepped with ⟨_, sent⟩ | ⟨_, _, changed⟩
  · obtain ⟨_, _, ⟨same, _⟩ | ⟨_, final, ran, same, _⟩⟩ := getTxData_spec sent
    · rw [same]
      exact scheduled
    · rw [same]
      exact scheduled_withRound scheduled (@run_all_turns lowerBound _ _ _ (fun _ _ => True) final
        scheduled (fun _ _ _ _ _ _ _ _ => trivial) trivial ran).1
  · exact changed.scheduled scheduled

/-! ## Invariants of streams -/

section Streams

variable {holds : Stream → Prop} {allowed : Request → Prop}

/-- A property of streams that new ones have, and that they keep whatever happens to them. -/
structure Kept (lowerBound : LowerBound) (allowed : Request → Prop) (holds : Stream → Prop) :
    Prop where
  fresh : ∀ id remoteSize localSize request, allowed request →
    holds (.create id remoteSize localSize request)
  marked : ∀ stream, holds stream → holds stream.marked
  receive : ∀ stream received, holds stream → holds (stream.receive received)
  getTxData : ∀ (stream : Stream) encoder limit turn, holds stream →
    stream.getTxData lowerBound encoder limit = .ok turn → holds turn.stream

/-- A stream is replaced in memory. -/
theorem forall_update {heap : Nat → Stream} (all : ∀ ptr, holds (heap ptr)) {ptr : Nat}
    {stream : Stream} (replaced : holds stream) (other : Nat) :
    holds (Function.update heap ptr stream other) :=
  (Function.forall_update_iff heap fun _ => holds).mpr ⟨replaced, fun other _ => all other⟩ other

private theorem Changed.streams {registry : StreamRegistry}
    (changed : Changed client event registry)
    (kept : Kept lowerBound allowed holds) (all : ∀ ptr, holds (client.registry.heap ptr))
    (made : ∀ request, event = .send request → allowed request) (ptr : Nat) :
    holds (registry.heap ptr) := by
  cases changed with
  | same => exact all ptr
  | @added request connected => exact forall_update all (kept.fresh _ _ _ _ (made request rfl)) ptr
  | timeout => exact forall_update all (kept.receive _ .timeout (all _)) ptr
  | @reset ec =>
      simp only [StreamRegistry.reset]
      split
      · exact kept.receive _ (.cleanup ec) (all ptr)
      · exact all ptr
  | erased delivered found finished emptied =>
      exact forall_update all (kept.receive _ _ (all _)) ptr
  | received delivered found unfinished unchecked =>
      exact forall_update all (kept.receive _ _ (all _)) ptr
  | enqueued delivered found unfinished checked =>
      exact forall_update all (kept.marked _ (kept.receive _ _ (all _))) ptr

private theorem Kept.served {limit : Nat} {round after : Round} {slot : Option Nat}
    {out : List (Nat × OutFrame)} (kept : Kept lowerBound allowed holds)
    (all : ∀ ptr, holds (round.heap ptr)) (served : Served lowerBound limit round slot after out)
    (ptr : Nat) : holds (after.heap ptr) := by
  cases served with
  | skipped idle => exact all ptr
  | again ready sent checked =>
      exact forall_update all (kept.marked _ (kept.getTxData _ _ _ _ (all _) sent)) ptr
  | once ready sent checked => exact forall_update all (kept.getTxData _ _ _ _ (all _) sent) ptr

/-- **Invariants of streams.** What new streams have and streams keep holds of every stream
in every run. -/
theorem Kept.run {events : List Event} {last : Machine.History Client Tx}
    (kept : Kept lowerBound allowed holds) (empty : allowed ⟨[], [], 0⟩)
    (made : ∀ request, .send request ∈ events → allowed request)
    (ran : (machine lowerBound).run start events = .ok last) (ptr : Nat) :
    holds (last.state.registry.heap ptr) := by
  refine @Machine.run_invariant _ _ _ _ _
    (fun _ event => ∀ request, event = .send request → allowed request)
    (fun history => ∀ ptr, holds (history.state.registry.heap ptr)) ?_ _ _ _
    (fun _ => kept.fresh 0 0 0 _ empty)
    (@Machine.along_of_mem _ _ _ _ _
      (fun event => ∀ request, event = .send request → allowed request) events
      (fun _ member request same => made request (same ▸ member)) start) ran ptr
  intro history event next all allowed taken ptr
  obtain ⟨state, out, stepped, rfl⟩ := Machine.advance_eq_ok taken
  rcases step_cases stepped with ⟨_, sent⟩ | ⟨_, _, changed⟩
  · obtain ⟨_, _, ⟨same, _⟩ | ⟨_, final, ran, same, _⟩⟩ := getTxData_spec sent
    · simp only [same]
      exact all ptr
    · simp only [same]
      refine @Machine.run_invariant _ _ _ _ _ (fun _ _ => True)
        (fun round => ∀ ptr, holds (round.state.heap ptr)) ?_ _ _ _ all
        (Machine.along_of_mem (fun _ _ => trivial) _) ran ptr
      intro round slot after all _ taken
      obtain ⟨state, out, stepped, rfl⟩ := Machine.advance_eq_ok taken
      exact kept.served all (scheduler_spec stepped)
  · exact changed.streams kept all allowed ptr

end Streams

/-! ## Sample events -/

/-- A frame that is read, with zeroes in the memory around it. -/
def frameRead (type : UInt8) (flags : UInt8) (id : UInt8) (payload : Bytes) : Event :=
  .receiveFrame (Span.ofBytes (fun _ => 0)
    ([0, 0, UInt8.ofNat payload.length, type, flags, 0, 0, 0, id] ++ payload))

/-- The client is connected to a server with an initial window of 60 bytes. -/
def smallWindow : List Event :=
  [.connected, frameRead 4 0 0 [0, 4, 0, 0, 0, 60], .getTxData]

/-- A request to `https://a/` with more fields and a body. -/
def sampleRequest (m : Method) (fields : List HeaderField) (slices : List Bytes) : Request :=
  match Request.create ⟨ascii "https", ascii "a", ascii "/", ascii "a", ascii "/"⟩ m with
  | .error _ => ⟨[], [], 0⟩
  | .ok base => (base.headers fields).bodies slices

/-- The request is made with the constructor and the methods of requests. -/
theorem sampleRequest_made (m : Method) (fields : List HeaderField) (slices : List Bytes) :
    (sampleRequest m fields slices).Made := by
  have made : (Request.create ⟨ascii "https", ascii "a", ascii "/", ascii "a", ascii "/"⟩
      m).toOption.isSome = true := by
    cases m <;> decide
  unfold sampleRequest
  split
  · rename_i failed
    rw [failed] at made
    cases made
  · rename_i base built
    exact ((Request.Made.create built).headers fields).bodies slices

end Client

end H2pp.Http2

import H2pp.Http2.Scheduling
import H2pp.Http2.Transmission

/-! # Flow control

What the server allows the client to send: for the connection the initial window and the
increments of its WINDOW_UPDATE frames, and for a stream the window it was created with
and the increments of its own. Calls of `prepare_body` return the size of the buffer
they have moved away, so DATA frames are never subtracted from a window. What is sent
stays within the credit as long as it covers all that the queued streams have left.
-/

namespace H2pp.Http2

open Utils Hpack

/-- The size of a DATA payload. -/
def Tx.dataSize : Tx → Nat
  | .command _ => 0
  | .frame _ sent => if sent.type = .data then sent.payload.length else 0

/-- The size of a DATA payload of a stream. -/
def Tx.dataSizeOf (ptr : Nat) : Tx → Nat
  | .command _ => 0
  | .frame other sent => if other = ptr then (Tx.frame other sent).dataSize else 0

/-- The bytes of DATA payloads that were sent. -/
def dataSent (emitted : List Tx) : Nat := (emitted.map Tx.dataSize).sum

/-- The bytes of DATA payloads that a stream has sent. -/
def dataSentBy (ptr : Nat) (emitted : List Tx) : Nat := (emitted.map (Tx.dataSizeOf ptr)).sum

@[simp] private theorem dataSent_append (first second : List Tx) :
    dataSent (first ++ second) = dataSent first + dataSent second := by
  rw [dataSent, List.map_append, List.sum_append, dataSent, dataSent]

@[simp] private theorem dataSentBy_append (ptr : Nat) (first second : List Tx) :
    dataSentBy ptr (first ++ second) = dataSentBy ptr first + dataSentBy ptr second := by
  rw [dataSentBy, List.map_append, List.sum_append, dataSentBy, dataSentBy]

/-- Commands are no DATA frames. -/
theorem dataSent_commands (commands : List Bytes) : dataSent (commands.map Tx.command) = 0 := by
  induction commands with
  | nil => rfl
  | cons command commands ih =>
      rw [dataSent, List.map_cons, List.map_cons, List.sum_cons, ← dataSent, ih]
      rfl

private theorem dataSentBy_commands (ptr : Nat) (commands : List Bytes) :
    dataSentBy ptr (commands.map Tx.command) = 0 := by
  induction commands with
  | nil => rfl
  | cons command commands ih =>
      rw [dataSentBy, List.map_cons, List.map_cons, List.sum_cons, ← dataSentBy, ih]
      rfl

namespace Stream

variable {lowerBound : LowerBound} {stream : Stream} {encoder : Encoder} {limit : Nat} {turn : Turn}

/-- A call sends at most what is left of the body. -/
theorem getTxData_payloads (sent : stream.getTxData lowerBound encoder limit = .ok turn) :
    (payloads turn.out).length ≤ stream.unsent.length := by
  cases called : stream.bodyCall lowerBound encoder limit with
  | none =>
      obtain ⟨_, _, _, frames⟩ := (getTxData_idle called).2 turn sent
      have empty : payloads turn.out = [] := by
        rcases frames with none | ⟨closing, _⟩
        · rw [payloads, none]
          rfl
        · rw [payloads, closing]
          rfl
      rw [empty]
      exact Nat.zero_le _
  | some argument =>
      have defined : ¬ (stream.request.bodyList = [] ∨
          stream.unsent.length < (stream.dataFrame argument).2) := by
        intro short
        rw [getTxData_short called short] at sent
        cases sent
      rw [not_or, Nat.not_lt] at defined
      obtain ⟨other, same, frames, _⟩ := getTxData_fits called defined.1 defined.2
      rw [sent] at same
      cases same
      rw [payloads, frames, List.flatMap_singleton, List.length_take]
      exact Nat.min_le_right _ _

/-- The frames of a turn as they are sent. -/
theorem dataSent_turn (ptr : Nat) (frames : List OutFrame) :
    dataSent (frames.map (Tx.frame ptr)) = (payloads frames).length := by
  induction frames with
  | nil => rfl
  | cons frame frames ih =>
      rw [dataSent, List.map_cons, List.map_cons, List.sum_cons, ← dataSent, ih, payloads, payloads,
        dataFrames, dataFrames, Tx.dataSize]
      by_cases data : frame.type = .data
      · rw [if_pos data, List.filter_cons_of_pos (by exact decide_eq_true data),
          List.flatMap_cons, List.length_append]
      · rw [if_neg data, List.filter_cons_of_neg (by simpa using data), Nat.zero_add]

private theorem dataSentBy_turn (ptr other : Nat) (frames : List OutFrame) :
    dataSentBy other (frames.map (Tx.frame ptr)) =
      if ptr = other then dataSent (frames.map (Tx.frame ptr)) else 0 := by
  induction frames with
  | nil => split <;> rfl
  | cons frame frames ih =>
      rw [dataSentBy, List.map_cons, List.map_cons, List.sum_cons, ← dataSentBy, ih, Tx.dataSizeOf,
        dataSent, dataSent, List.map_cons, List.sum_cons]
      split <;> rfl

end Stream

namespace Client

open StreamRegistry

variable {lowerBound : LowerBound} {client next : Client}

/-- What the server allows the client to send in DATA frames. -/
structure Credit where
  connection : Nat
  stream : Nat → Nat

/-- The increment of a WINDOW_UPDATE frame for the connection. -/
def connectionIncrement : Event → Nat
  | .receiveFrame data =>
      match FrameAnalyzer.fromBuffer data with
      | .error _ => 0
      | .ok frame =>
          if FrameType.ofByte frame.typeByte = some .windowUpdate ∧ frame.streamId = 0 then
            readBig32 frame.buffer headerSize
          else 0
  | _ => 0

/-- The increment of a WINDOW_UPDATE frame for a stream. -/
def streamIncrement (client : Client) (event : Event) (ptr : Nat) : Nat :=
  match client.delivery event with
  | some (id, .windowUpdate increment) =>
      if client.registry.getStream id = some ptr then increment else 0
  | _ => 0

/-- The credit after an event. A new stream has the initial window of the server. -/
def granted (client : Client) (event : Event) (credit : Credit) : Credit where
  connection := credit.connection + connectionIncrement event
  stream :=
    match event with
    | .send _ =>
        if client.isConnected then
          Function.update credit.stream client.registry.size
            client.settings.remoteSettings.initialWindowSize
        else credit.stream
    | event => fun ptr => credit.stream ptr + client.streamIncrement event ptr

/-- The client, with the credit it has. -/
def metered (lowerBound : LowerBound) : Machine (Client × Credit) Event Tx Failure :=
  (machine lowerBound).observed granted

/-- A new client. -/
def meteredStart : Machine.History (Client × Credit) Tx :=
  ⟨(create, ⟨initialWindowSize, fun _ => 0⟩), []⟩

/-- What was sent is within the credit, on the connection and on every stream. -/
def WithinCredit (history : Machine.History (Client × Credit) Tx) : Prop :=
  dataSent history.emitted ≤ history.state.2.connection ∧
    ∀ ptr, dataSentBy ptr history.emitted ≤ history.state.2.stream ptr

/-- When the client sends, the credit covers what the streams in the queue have left. -/
def Covered (history : Machine.History (Client × Credit) Tx) : Event → Prop
  | .getTxData =>
      dataSent history.emitted + (history.state.1.registry.queued.map fun ptr =>
          (history.state.1.registry.heap ptr).unsent.length).sum ≤ history.state.2.connection ∧
        ∀ ptr ∈ history.state.1.registry.queued,
          dataSentBy ptr history.emitted + (history.state.1.registry.heap ptr).unsent.length ≤
            history.state.2.stream ptr
  | _ => True

instance (history : Machine.History (Client × Credit) Tx) (event : Event) :
    Decidable (Covered history event) := by
  unfold Covered
  split <;> infer_instance

/-- What a round of turns has sent so far. -/
structure RoundSent (registry : StreamRegistry) (emitted : List (Nat × OutFrame))
    (remaining : List (Option Nat)) : Prop where
  total : dataSent (streamTx emitted) +
      (remaining.reduceOption.map fun ptr => (registry.heap ptr).unsent.length).sum ≤
    (registry.queued.map fun ptr => (registry.heap ptr).unsent.length).sum
  each : ∀ ptr, dataSentBy ptr (streamTx emitted) ≤ (registry.heap ptr).unsent.length
  silent : ∀ ptr, ptr ∈ remaining.reduceOption ∨ ptr ∉ registry.queued →
    dataSentBy ptr (streamTx emitted) = 0

private theorem streamTx_append (first second : List (Nat × OutFrame)) :
    streamTx (first ++ second) = streamTx first ++ streamTx second := List.map_append

private theorem streamTx_turn (ptr : Nat) (frames : List OutFrame) :
    streamTx (frames.map fun frame => (ptr, frame)) = frames.map (Tx.frame ptr) :=
  List.map_map

/-- A turn sends at most what is left of the body. -/
theorem RoundSent.turn {registry : StreamRegistry} {round : Round} {ptr limit : Nat} {turn : Turn}
    {remaining : List (Option Nat)} {emitted : List (Nat × OutFrame)}
    (sent : RoundSent registry emitted (some ptr :: remaining))
    (rounds : registry.RoundScheduled round (some ptr :: remaining))
    (served : (round.heap ptr).getTxData lowerBound round.encoder limit = .ok turn) :
    RoundSent registry (emitted ++ turn.out.map fun frame => (ptr, frame)) remaining := by
  obtain ⟨_, queued, _, _, _⟩ := rounds.others turn.stream
  have fresh : ptr ∉ remaining.reduceOption := by
    have once := rounds.once
    rw [List.reduceOption_cons_of_some] at once
    exact fun member => (List.nodup_cons.mp (List.nodup_middle.mp once)).1
      (List.mem_append_right _ member)
  have waiting : round.heap ptr = registry.heap ptr :=
    rounds.waiting ptr (.inl (by rw [List.reduceOption_cons_of_some]; exact List.mem_cons_self))
  have bounded : dataSent (turn.out.map (Tx.frame ptr)) ≤ (registry.heap ptr).unsent.length := by
    rw [Stream.dataSent_turn, ← waiting]
    exact Stream.getTxData_payloads served
  obtain ⟨total, each, silent⟩ := sent
  rw [List.reduceOption_cons_of_some] at total silent
  rw [List.map_cons, List.sum_cons] at total
  refine ⟨?_, fun other => ?_, fun other absent => ?_⟩
  · rw [streamTx_append, streamTx_turn, dataSent_append]
    omega
  · rw [streamTx_append, streamTx_turn, dataSentBy_append, Stream.dataSentBy_turn]
    split
    · rename_i same
      subst same
      rw [silent ptr (.inl List.mem_cons_self), Nat.zero_add]
      exact bounded
    · exact each other
  · have differs : ptr ≠ other := by
      rintro rfl
      exact absent.elim fresh fun outside => outside queued
    rw [streamTx_append, streamTx_turn, dataSentBy_append, Stream.dataSentBy_turn, if_neg differs,
      silent other (absent.imp_left (List.mem_cons_of_mem _))]

private theorem RoundSent.served {registry : StreamRegistry} {round after : Round} {limit : Nat}
    {slot : Option Nat} {remaining : List (Option Nat)} {emitted out : List (Nat × OutFrame)}
    (sent : RoundSent registry emitted (slot :: remaining))
    (rounds : registry.RoundScheduled round (slot :: remaining))
    (served : Served lowerBound limit round slot after out) :
    RoundSent registry (emitted ++ out) remaining := by
  cases served with
  | again ready served checked => exact sent.turn rounds served
  | once ready served checked => exact sent.turn rounds served
  | skipped idle =>
      rw [List.append_nil]
      cases slot with
      | none =>
          have same := List.reduceOption_cons_of_none remaining
          exact ⟨same ▸ sent.total, sent.each, same ▸ sent.silent⟩
      | some ptr =>
          obtain ⟨total, each, silent⟩ := sent
          rw [List.reduceOption_cons_of_some] at total silent
          rw [List.map_cons, List.sum_cons] at total
          exact ⟨by omega, each, fun other absent =>
            silent other (absent.imp_left (List.mem_cons_of_mem _))⟩

/-- What a call of `get_tx_data` sends. -/
theorem getTxData_sent {out : List Tx} (scheduled : client.registry.Scheduled)
    (sent : client.getTxData lowerBound = .ok (next, out)) :
    dataSent out ≤
        (client.registry.queued.map fun ptr => (client.registry.heap ptr).unsent.length).sum ∧
      ∀ ptr, dataSentBy ptr out ≤ (client.registry.heap ptr).unsent.length ∧
        (ptr ∉ client.registry.queued → dataSentBy ptr out = 0) := by
  obtain ⟨commands, _, ⟨_, rfl⟩ | ⟨_, final, ran, _, rfl⟩⟩ := getTxData_spec sent
  · simp only [dataSent_commands, dataSentBy_commands, Nat.zero_le, implies_true, and_self]
  · have start : RoundSent client.registry [] client.registry.queue :=
      ⟨Nat.le_of_eq (Nat.zero_add _), fun _ => Nat.zero_le _, fun _ _ => rfl⟩
    obtain ⟨_, total, each, silent⟩ := @run_all_turns lowerBound client.registry client.encoder
      client.streamLimit (fun history remaining =>
        RoundSent client.registry history.emitted remaining) final scheduled
      (fun history slot remaining after frames rounds sent served => sent.served rounds served)
      start ran
    simp only [dataSent_append, dataSent_commands, dataSentBy_append, dataSentBy_commands,
      Nat.zero_add]
    exact ⟨Nat.le_trans (Nat.le_add_right _ _) total,
      fun ptr => ⟨each ptr, fun absent => silent ptr (.inr absent)⟩⟩

/-- Credit is never taken back; only a new stream gets one of its own. -/
theorem granted_mono (client : Client) (event : Event) (credit : Credit) :
    credit.connection ≤ (client.granted event credit).connection ∧
      ∀ ptr < client.registry.size,
        credit.stream ptr ≤ (client.granted event credit).stream ptr := by
  refine ⟨Nat.le_add_right _ _, fun ptr inside => ?_⟩
  simp only [granted]
  split
  · split
    · rw [Function.update_of_ne (Nat.ne_of_lt inside)]
    · exact Nat.le_refl _
  · exact Nat.le_add_right _ _

private theorem Changed.size_le {event : Event} {registry : StreamRegistry}
    (changed : Changed client event registry) : client.registry.size ≤ registry.size := by
  cases changed with
  | added connected => exact Nat.le_succ _
  | _ => exact Nat.le_refl _

private theorem getTxData_size {out : List Tx}
    (sent : client.getTxData lowerBound = .ok (next, out)) :
    next.registry.size = client.registry.size := by
  obtain ⟨_, _, ⟨same, _⟩ | ⟨_, final, _, same, _⟩⟩ := getTxData_spec sent
  · rw [same]
  · rw [same]
    rfl

/-- What holds in a run: what was sent is within the credit, and nothing was sent for a
stream that does not exist yet. -/
structure Metered (history : Machine.History (Client × Credit) Tx) : Prop where
  within : WithinCredit history
  scheduled : history.state.1.registry.Scheduled
  unborn : ∀ ptr, history.state.1.registry.size ≤ ptr → dataSentBy ptr history.emitted = 0

/-- What is within the credit stays so when more credit is granted. -/
theorem Metered.granted {state : Client × Credit} {emitted : List Tx} {after : Client}
    (metered : Metered ⟨state, emitted⟩) (event : Event) (scheduled : after.registry.Scheduled)
    (grown : state.1.registry.size ≤ after.registry.size) :
    Metered ⟨(after, state.1.granted event state.2), emitted⟩ := by
  obtain ⟨⟨total, each⟩, _, unborn⟩ := metered
  obtain ⟨connection, streams⟩ := state.1.granted_mono event state.2
  refine ⟨⟨Nat.le_trans total connection, fun ptr => ?_⟩, scheduled,
    fun ptr outside => unborn ptr (Nat.le_trans grown outside)⟩
  by_cases inside : ptr < state.1.registry.size
  · exact Nat.le_trans (each ptr) (streams ptr inside)
  · exact Nat.le_trans (Nat.le_of_eq (unborn ptr (Nat.not_lt.mp inside))) (Nat.zero_le _)

/-- The client sends, and the credit suffices. -/
theorem Metered.sent {state : Client × Credit} {emitted out : List Tx}
    (metered : Metered ⟨state, emitted⟩) (covered : Covered ⟨state, emitted⟩ .getTxData)
    (sent : state.1.getTxData lowerBound = .ok (next, out)) : Metered ⟨state, emitted ++ out⟩ := by
  obtain ⟨⟨_, each⟩, scheduled, unborn⟩ := metered
  obtain ⟨connection, streams⟩ := covered
  obtain ⟨now, bounds⟩ := getTxData_sent scheduled sent
  have silent (ptr : Nat) (absent : ptr ∉ state.1.registry.queued) :
      dataSentBy ptr (emitted ++ out) = dataSentBy ptr emitted := by
    rw [dataSentBy_append, (bounds ptr).2 absent, Nat.add_zero]
  refine ⟨⟨?_, fun ptr => ?_⟩, scheduled, fun ptr outside => ?_⟩
  · rw [dataSent_append]
    exact Nat.le_trans (Nat.add_le_add_left now _) connection
  · by_cases member : ptr ∈ state.1.registry.queued
    · rw [dataSentBy_append]
      exact Nat.le_trans (Nat.add_le_add_left (bounds ptr).1 _) (streams ptr member)
    · rw [silent ptr member]
      exact each ptr
  · rw [silent ptr fun member => Nat.not_lt.mpr outside (scheduled.marked ptr member).1]
    exact unborn ptr outside

private theorem Metered.advance {history after : Machine.History (Client × Credit) Tx}
    {event : Event}
    (metered : Metered history) (covered : Covered history event)
    (taken : (Client.metered lowerBound).advance history event = .ok after) : Metered after := by
  obtain ⟨state, out, stepped, rfl⟩ := Machine.observed_advance taken
  have scheduled := scheduled_step metered.scheduled stepped
  rcases step_cases stepped with ⟨rfl, sent⟩ | ⟨_, rfl, changed⟩
  · exact (metered.sent covered sent).granted _ scheduled (Nat.le_of_eq (getTxData_size sent).symm)
  · rw [List.append_nil]
    exact metered.granted event scheduled changed.size_le

/-- **Flow control.** In every run in which the credit covers what the queued streams
have left whenever the client sends, what was sent is within the credit. -/
theorem within_credit (lowerBound : LowerBound) (events : List Event)
    (last : Machine.History Client Tx)
    (covered : (metered lowerBound).Along Covered meteredStart events)
    (ran : (machine lowerBound).run start events = .ok last) :
    ∃ credit, (metered lowerBound).run meteredStart events =
        .ok ⟨(last.state, credit), last.emitted⟩ ∧
      WithinCredit ⟨(last.state, credit), last.emitted⟩ := by
  obtain ⟨credit, observed⟩ := Machine.observed_run ran
  refine ⟨credit, observed, Metered.within (Machine.run_invariant
    (fun history event next metered met taken => metered.advance met taken) ?_ covered observed)⟩
  exact ⟨⟨Nat.zero_le _, fun _ => Nat.zero_le _⟩, .create, fun _ _ => rfl⟩

/-- An upload to a server with an initial window of 60 bytes. -/
def uploadOf (size : Nat) : List Event :=
  smallWindow ++ [.send (sampleRequest .post [] [List.replicate size 7]), .getTxData, .getTxData]

/-- A body of 20 bytes is sent within the credit of the stream. -/
theorem within_credit_small :
    ∃ last credit, (machine .linear).run start (uploadOf 20) = .ok last ∧
      dataSentBy 0 last.emitted = 20 ∧
      WithinCredit ⟨(last.state, credit), last.emitted⟩ := by
  have passes : ((machine .linear).run start (uploadOf 20)).toOption.any
      (fun last => decide ((metered .linear).Along Covered meteredStart (uploadOf 20) ∧
        dataSentBy 0 last.emitted = 20)) = true := by
    decide +kernel
  obtain ⟨last, ran, checks⟩ := Outcome.exists_ok_of_any passes
  obtain ⟨covered, sent⟩ := of_decide_eq_true checks
  obtain ⟨credit, _, within⟩ := within_credit .linear (uploadOf 20) last covered ran
  exact ⟨last, credit, ran, sent, within⟩

/-- Of a body of 100 bytes, 72 are sent in two calls, and the server has allowed 60. -/
theorem credit_exceeded :
    ∃ last, (metered .linear).run meteredStart (uploadOf 100) = .ok last ∧
      last.state.2.stream 0 = 60 ∧ dataSentBy 0 last.emitted = 72 := by
  have passes : ((metered .linear).run meteredStart (uploadOf 100)).toOption.any
      (fun last => decide (last.state.2.stream 0 = 60 ∧ dataSentBy 0 last.emitted = 72)) =
        true := by
    decide +kernel
  obtain ⟨last, ran, checks⟩ := Outcome.exists_ok_of_any passes
  exact ⟨last, ran, of_decide_eq_true checks⟩

end Client

end H2pp.Http2

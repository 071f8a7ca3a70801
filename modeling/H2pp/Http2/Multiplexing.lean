import H2pp.Http2.Scheduling

/-! # Streams on one connection

All streams of a client share its encoder, its queue and its connection. Still, what
happens to a stream is a run of the stream alone: it sends when it has a turn, and it
receives the frames that carry its id while the registry has it under this id. So
whatever holds in every run of a stream holds of every stream of a client.
-/

namespace H2pp.Http2

open Utils Hpack

/-! ## The frames of a stream -/

/-- The frame that was sent, if it was sent for the stream. -/
def Tx.frameOf (ptr : Nat) : Tx → Option OutFrame
  | .command _ => none
  | .frame other sent => if other = ptr then some sent else none

/-- The frames that were sent for a stream. -/
def framesOf (ptr : Nat) (sent : List Tx) : List OutFrame := sent.filterMap (Tx.frameOf ptr)

/-- The frames of a stream are picked part by part. -/
@[simp] theorem framesOf_append (ptr : Nat) (first second : List Tx) :
    framesOf ptr (first ++ second) = framesOf ptr first ++ framesOf ptr second :=
  List.filterMap_append

/-- Commands belong to no stream. -/
@[simp] theorem framesOf_commands (ptr : Nat) (commands : List Bytes) :
    framesOf ptr (commands.map Tx.command) = [] := by
  induction commands with
  | nil => rfl
  | cons command commands ih => exact ih

/-- A frame belongs to one stream. -/
theorem framesOf_cons (ptr other : Nat) (frame : OutFrame) (sent : List Tx) :
    framesOf other (Tx.frame ptr frame :: sent) =
      if ptr = other then frame :: framesOf other sent else framesOf other sent := by
  rw [framesOf, List.filterMap_cons, Tx.frameOf]
  by_cases same : ptr = other
  · rw [if_pos same, if_pos same]
    rfl
  · rw [if_neg same, if_neg same]
    rfl

private theorem framesOf_turn (ptr other : Nat) (out : List OutFrame) :
    framesOf other (Client.streamTx (out.map fun frame => (ptr, frame))) =
      if ptr = other then out else [] := by
  induction out with
  | nil => exact (ite_self _).symm
  | cons frame out ih =>
      rw [List.map_cons, Client.streamTx, List.map_cons, framesOf_cons]
      rw [Client.streamTx] at ih
      rw [ih]
      split <;> rfl

/-- A frame of a stream was sent for it. -/
theorem mem_framesOf {ptr : Nat} {sent : List Tx} {frame : OutFrame} :
    frame ∈ framesOf ptr sent ↔ Tx.frame ptr frame ∈ sent := by
  rw [framesOf, List.mem_filterMap]
  constructor
  · rintro ⟨tx, member, chosen⟩
    cases tx with
    | command bytes => cases chosen
    | frame other own =>
        by_cases same : other = ptr
        · rw [Tx.frameOf, if_pos same] at chosen
          cases chosen
          exact same ▸ member
        · rw [Tx.frameOf, if_neg same] at chosen
          cases chosen
  · intro member
    exact ⟨_, member, if_pos rfl⟩

/-! ## What a stream is given -/

namespace Stream

/-- What an event gives to a stream: a frame, a timer that has run out, or the end of
the connection. -/
def Event.given : Event → Option Received
  | .send _ _ => none
  | .receive .schedule => none
  | .receive received => some received

/-- A frame of the server. -/
def Received.isFrame : Received → Bool
  | .cleanup _ => false
  | .timeout => false
  | .schedule => false
  | _ => true

/-- What a stream is given over some events. -/
def given (events : List Event) : List Received := events.filterMap Event.given

/-- What a stream is given is picked part by part. -/
@[simp] theorem given_append (first second : List Event) :
    given (first ++ second) = given first ++ given second := List.filterMap_append

/-- Apart from the turns in the queue, all that is received is given. -/
theorem given_receive {received : Received} (other : received ≠ .schedule) :
    given [.receive received] = [received] := by
  cases received with
  | schedule => exact absurd rfl other
  | _ => rfl

/-- A timer runs out only while it is waiting. -/
def TimerWaits (history : Machine.History Stream OutFrame) (event : Event) : Prop :=
  event = .receive .timeout → history.state.timer = true

/-- A stream gets from one state to another on its own: it sends `out` and is given
`received`, and only timers that wait run out. -/
def Evolves (lowerBound : LowerBound) (stream : Stream) (received : List Received)
    (out : List OutFrame) (next : Stream) : Prop :=
  ∃ seen, (machine lowerBound).Takes stream seen next out ∧ given seen = received ∧
    ∀ earlier, (machine lowerBound).Along TimerWaits ⟨stream, earlier⟩ seen

namespace Evolves

variable {lowerBound : LowerBound} {stream middle next : Stream} {received later : List Received}
  {out more : List OutFrame}

private theorem refl (lowerBound : LowerBound) (stream : Stream) :
    Evolves lowerBound stream [] [] stream :=
  ⟨[], .refl _ _, rfl, fun _ => trivial⟩

private theorem trans (first : Evolves lowerBound stream received out middle)
    (second : Evolves lowerBound middle later more next) :
    Evolves lowerBound stream (received ++ later) (out ++ more) next := by
  obtain ⟨seen, takes, gives, waits⟩ := first
  obtain ⟨rest, goesOn, givesRest, waitsRest⟩ := second
  refine ⟨seen ++ rest, takes.append goesOn, by rw [given_append, gives, givesRest], ?_⟩
  intro earlier
  exact (waits earlier).append (takes earlier) (waitsRest _)

private theorem step {event : Event}
    (stepped : (machine lowerBound).step stream event = .ok (next, out))
    (waits : event = .receive .timeout → stream.timer = true) :
    Evolves lowerBound stream (given [event]) out next :=
  ⟨[event], .step stepped, rfl, fun earlier => ⟨waits, by split <;> trivial⟩⟩

/-- A stream is given something. -/
theorem receive {received : Received} (other : received ≠ .schedule)
    (waits : received = .timeout → stream.timer = true) :
    Evolves lowerBound stream [received] [] (stream.receive received) := by
  have received := @step lowerBound stream _ [] (.receive received) rfl
    fun same => waits (Event.receive.inj same)
  rwa [given_receive other] at received

/-- A stream gets its mark. -/
theorem marked (checked : stream.checkTxData.1 = true) :
    Evolves lowerBound stream [] [] stream.marked := by
  have scheduled := @step lowerBound stream stream.marked [] (.receive .schedule)
    (by rw [← (checkTxData_true checked).2.2]; rfl) (by rintro ⟨⟩)
  exact scheduled

/-- A stream has a turn. -/
theorem send {encoder : Encoder} {limit : Nat} {turn : Turn}
    (sent : stream.getTxData lowerBound encoder limit = .ok turn) :
    Evolves lowerBound stream [] turn.out turn.stream :=
  @step lowerBound stream turn.stream turn.out (.send encoder limit)
    (Outcome.bind_eq_ok.mpr ⟨turn, sent, rfl⟩) (by rintro ⟨⟩)

end Evolves

end Stream

namespace StreamRegistry

/-- What the first streams in memory measure together. -/
def total (measure : Stream → Nat) (heap : Nat → Stream) : Nat → Nat
  | 0 => 0
  | count + 1 => total measure heap count + measure (heap count)

section Total

variable {measure : Stream → Nat} {heap other : Nat → Stream} {ptr count : Nat}

/-- The sum depends on the streams that are counted only. -/
theorem total_congr (same : ∀ ptr < count, measure (other ptr) = measure (heap ptr)) :
    total measure other count = total measure heap count := by
  induction count with
  | zero => rfl
  | succ count ih =>
      rw [total, total, ih fun ptr inside => same ptr (Nat.lt_succ_of_lt inside),
        same count (Nat.lt_succ_self _)]

/-- Only one stream has changed. -/
theorem total_update (inside : ptr < count) (stream : Stream) :
    total measure (Function.update heap ptr stream) count + measure (heap ptr) =
      total measure heap count + measure stream := by
  induction count with
  | zero => exact absurd inside (Nat.not_lt_zero _)
  | succ count ih =>
      rw [total, total]
      by_cases last : ptr = count
      · subst last
        rw [Function.update_self, total_congr fun other before => by
          rw [Function.update_of_ne (Nat.ne_of_lt before)]]
        omega
      · have earlier := ih (by omega)
        rw [Function.update_of_ne (Ne.symm last)]
        omega

/-- No stream has more than all have. -/
theorem le_total (inside : ptr < count) : measure (heap ptr) ≤ total measure heap count := by
  induction count with
  | zero => exact absurd inside (Nat.not_lt_zero _)
  | succ count ih =>
      rw [total]
      by_cases last : ptr = count
      · rw [last]
        exact Nat.le_add_left _ _
      · exact Nat.le_trans (ih (by omega)) (Nat.le_add_right _ _)

end Total

variable {lowerBound : LowerBound} {registry next : StreamRegistry}

/-- `invoke_for_stream` gives something to the stream that the id leads to, and leaves
all others alone. -/
theorem invokeForStream_evolves {id : Nat} {received : Stream.Received}
    (isFrame : received.isFrame = true)
    (invoked : registry.invokeForStream id received = .ok next) (ptr : Nat) :
    Stream.Evolves lowerBound (registry.heap ptr)
      (if registry.getStream id = some ptr then [received] else []) [] (next.heap ptr) := by
  unfold invokeForStream at invoked
  cases found : registry.getStream id with
  | none =>
      rw [found] at invoked
      cases invoked
      rw [if_neg (Option.some_ne_none ptr).symm]
      exact .refl _ _
  | some target =>
      rw [found] at invoked
      simp only [Option.some.injEq]
      by_cases own : target = ptr
      · subst own
        rw [if_pos rfl]
        have receives : Stream.Evolves lowerBound (registry.heap target) [received] []
            ((registry.heap target).receive received) :=
          .receive (by rintro rfl; cases isFrame) (by rintro rfl; cases isFrame)
        simp only at invoked
        split at invoked
        · obtain ⟨slots, _, same⟩ := Outcome.bind_eq_ok.mp invoked
          cases same
          simp only [Function.update_self]
          exact receives
        · cases checked : ((registry.heap target).receive received).checkTxData.1 with
          | true =>
              rw [checked, (Stream.checkTxData_true checked).2.2] at invoked
              cases invoked
              simp only [↓reduceIte, enqueue, Function.update_self]
              exact receives.trans (.marked checked)
          | false =>
              rw [checked, Stream.checkTxData_false checked] at invoked
              cases invoked
              simp only [Bool.false_eq_true, ↓reduceIte, Function.update_self]
              exact receives
      · rw [if_neg own]
        have untouched : next.heap ptr = registry.heap ptr := by
          simp only at invoked
          split at invoked
          · obtain ⟨slots, _, same⟩ := Outcome.bind_eq_ok.mp invoked
            cases same
            exact Function.update_of_ne (Ne.symm own) ..
          · cases invoked
            split <;> exact Function.update_of_ne (Ne.symm own) ..
        rw [untouched]
        exact .refl _ _

/-- A turn of `get_data` skips its slot, or lets the stream of the slot send and marks it if
it has more. -/
theorem Served.turn {limit : Nat} {round after : Round} {slot : Option Nat}
    {out : List (Nat × OutFrame)} (served : Served lowerBound limit round slot after out) :
    after = round ∧ out = [] ∨
      ∃ ptr turn stream, slot = some ptr ∧
        (round.heap ptr).getTxData lowerBound round.encoder (sizeSub limit round.bytesUsed) =
          .ok turn ∧
        (stream = turn.stream ∨ turn.stream.checkTxData.1 = true ∧ stream = turn.stream.marked) ∧
        after.heap = Function.update round.heap ptr stream ∧ after.encoder = turn.encoder ∧
        out = turn.out.map fun frame => (ptr, frame) := by
  cases served with
  | skipped idle => exact .inl ⟨rfl, rfl⟩
  | again ready sent checked =>
      exact .inr ⟨_, _, _, rfl, sent, .inr ⟨checked, rfl⟩, rfl, rfl, rfl⟩
  | once ready sent checked => exact .inr ⟨_, _, _, rfl, sent, .inl rfl, rfl, rfl, rfl⟩

end StreamRegistry

namespace Client

variable {lowerBound : LowerBound} {client next : Client} {event : Event}

/-- The stream of a request as `initiate_send` creates it. -/
def newStream (client : Client) (request : Request) : Stream :=
  .create client.nextStreamId client.settings.remoteSettings.initialWindowSize
    client.settings.localSettings.initialWindowSize request

/-- What an event gives to a stream. -/
def givenTo (client : Client) (event : Event) (ptr : Nat) : List Stream.Received :=
  match event with
  | .streamTimeout other =>
      if other = ptr ∧ (client.registry.heap ptr).timer then [.timeout] else []
  | .cleanup ec => if ptr ∈ client.registry.streamMap.map Prod.snd then [.cleanup ec] else []
  | event =>
      match client.delivery event with
      | none => []
      | some (id, received) => if client.registry.getStream id = some ptr then [received] else []

/-- What an observer of a client writes down: the streams as they were created, and what
each of them was given. -/
structure Journal where
  opened : List Stream
  given : Nat → List Stream.Received

/-- What is written down at an event. -/
def noted (client : Client) (event : Event) (journal : Journal) : Journal :=
  match event with
  | .send request =>
      if client.isConnected then
        ⟨journal.opened ++ [client.newStream request],
          Function.update journal.given client.registry.size []⟩
      else journal
  | event => { journal with given := fun ptr => journal.given ptr ++ client.givenTo event ptr }

/-- The client with the journal. -/
def journaled (lowerBound : LowerBound) : Machine (Client × Journal) Event Tx Failure :=
  (machine lowerBound).observed noted

/-- A client with an empty journal. -/
def unwritten (client : Client) : Machine.History (Client × Journal) Tx :=
  ⟨(client, ⟨[], fun _ => []⟩), []⟩

/-- Frames give neither timers nor marks to streams. -/
theorem delivery_isFrame {id : Nat} {received : Stream.Received}
    (delivered : client.delivery event = some (id, received)) : received.isFrame = true := by
  unfold delivery at delivered
  split at delivered
  · split at delivered
    · cases delivered
    · obtain ⟨type, _, given⟩ := Option.bind_eq_some_iff.mp delivered
      unfold frameDelivery at given
      split at given
      · obtain ⟨_, _, same⟩ := Option.map_eq_some_iff.mp given
        cases same
        rfl
      · cases given
        rfl
      · split at given <;> cases given
        rfl
      · obtain ⟨_, _, same⟩ := Option.map_eq_some_iff.mp given
        cases same
        rfl
      · cases given
  · split at delivered <;> cases delivered
    rfl
  · cases delivered

private theorem deliver_evolves {registry : StreamRegistry}
    (delivered : client.registry.deliver (client.delivery event) = .ok registry) (ptr : Nat) :
    Stream.Evolves lowerBound (client.registry.heap ptr)
      (match client.delivery event with
        | none => []
        | some (id, received) => if client.registry.getStream id = some ptr then [received] else [])
      [] (registry.heap ptr) := by
  cases given : client.delivery event with
  | none =>
      rw [given] at delivered
      cases delivered
      exact .refl _ _
  | some delivery =>
      obtain ⟨id, received⟩ := delivery
      rw [given] at delivered
      exact StreamRegistry.invokeForStream_evolves (delivery_isFrame given) delivered ptr

/-- An event other than sending and the opening of a stream gives something to a stream. -/
theorem react_evolves (sends : event ≠ .getTxData) (opens : ∀ request, event ≠ .send request)
    (reacted : client.react event = .ok next) (ptr : Nat) :
    Stream.Evolves lowerBound (client.registry.heap ptr) (client.givenTo event ptr) []
      (next.registry.heap ptr) := by
  have after := react_registry sends reacted
  generalize next.registry = registry at after ⊢
  cases event with
  | getTxData => exact absurd rfl sends
  | send request => exact absurd rfl (opens request)
  | streamTimeout other =>
      cases after
      simp only [givenTo, StreamRegistry.onTimeout]
      by_cases own : other = ptr
      · subst own
        simp only [Function.update_self, true_and]
        split
        · rename_i waits
          exact .receive (by rintro ⟨⟩) fun _ => waits
        · rename_i stopped
          rw [Stream.onTimeout, if_neg stopped]
          exact .refl _ _
      · rw [if_neg fun both => own both.1, Function.update_of_ne (Ne.symm own)]
        exact .refl _ _
  | cleanup ec =>
      cases after
      simp only [givenTo, StreamRegistry.reset]
      split
      · exact .receive (by rintro ⟨⟩) (by rintro ⟨⟩)
      · exact .refl _ _
  | receiveFrame data => exact @deliver_evolves _ _ (.receiveFrame data) _ after ptr
  | receiveDataFrame buff => exact @deliver_evolves _ _ (.receiveDataFrame buff) _ after ptr
  | _ =>
      cases after
      exact .refl _ _

private theorem invokeForStream_size {registry after : StreamRegistry} {id : Nat}
    {received : Stream.Received} (invoked : registry.invokeForStream id received = .ok after) :
    after.size = registry.size := by
  unfold StreamRegistry.invokeForStream at invoked
  split at invoked
  · cases invoked
    rfl
  · simp only at invoked
    split at invoked
    · obtain ⟨slots, _, same⟩ := Outcome.bind_eq_ok.mp invoked
      cases same
      rfl
    · cases invoked
      split <;> rfl

/-- Only requests open streams. -/
theorem react_size (sends : event ≠ .getTxData) (opens : ∀ request, event ≠ .send request)
    (reacted : client.react event = .ok next) :
    next.registry.size = client.registry.size := by
  have after := react_registry sends reacted
  generalize next.registry = registry at after ⊢
  have delivered (received : Option (Nat × Stream.Received))
      (done : client.registry.deliver received = .ok registry) :
      registry.size = client.registry.size := by
    cases received with
    | none =>
        cases done
        rfl
    | some received => exact invokeForStream_size done
  cases event with
  | getTxData => exact absurd rfl sends
  | send request => exact absurd rfl (opens request)
  | receiveFrame data => exact delivered _ after
  | receiveDataFrame buff => exact delivered _ after
  | _ =>
      cases after
      rfl

/-- What holds of a client with its journal: every stream has evolved on its own from the
stream that was opened, with the frames that were sent for it and what it was given. -/
structure Multiplexed (lowerBound : LowerBound) (history : Machine.History (Client × Journal) Tx) :
    Prop where
  scheduled : history.state.1.registry.Scheduled
  opened : history.state.2.opened.length = history.state.1.registry.size
  alone : ∀ ptr created, history.state.2.opened[ptr]? = some created →
    Stream.Evolves lowerBound created (history.state.2.given ptr) (framesOf ptr history.emitted)
      (history.state.1.registry.heap ptr)
  unborn : ∀ ptr, history.state.1.registry.size ≤ ptr → framesOf ptr history.emitted = []

/-- **A round of turns.** What is kept whenever a stream of the registry sends, whether it is
marked again or not, holds after the round. -/
theorem run_streams {registry : StreamRegistry} {encoder : Encoder} {limit : Nat}
    {invariant : (Nat → Stream) → Encoder → List (Nat × OutFrame) → Prop}
    {final : Machine.History Round (Nat × OutFrame)} (scheduled : registry.Scheduled)
    (keeps : ∀ heap encoder emitted ptr limit turn stream, ptr < registry.size →
      (heap ptr).httpId = (registry.heap ptr).httpId → invariant heap encoder emitted →
      (heap ptr).getTxData lowerBound encoder limit = .ok turn →
      (stream = turn.stream ∨ turn.stream.checkTxData.1 = true ∧ stream = turn.stream.marked) →
      invariant (Function.update heap ptr stream) turn.encoder
        (emitted ++ turn.out.map fun frame => (ptr, frame)))
    (start : invariant registry.heap encoder [])
    (ran : (StreamRegistry.scheduler lowerBound limit).run ⟨⟨registry.heap, encoder, 0, []⟩, []⟩
      registry.queue = .ok final) :
    invariant final.state.heap final.state.encoder final.emitted := by
  refine (@run_all_turns lowerBound registry encoder limit
    (fun history _ => invariant history.state.heap history.state.encoder history.emitted)
    final scheduled ?_ start ran).2
  intro history slot remaining next out rounds holds served
  rcases served.turn with
    ⟨rfl, rfl⟩ | ⟨ptr, turn, stream, rfl, sent, marked, heap, encoder, rfl⟩
  · rw [List.append_nil]
    exact holds
  · simp only [heap, encoder]
    exact keeps _ _ _ ptr _ turn stream (rounds.others stream).1 (rounds.ids ptr) holds sent marked

private theorem framesOf_streamTx (ptr : Nat) (first second : List (Nat × OutFrame)) :
    framesOf ptr (streamTx (first ++ second)) =
      framesOf ptr (streamTx first) ++ framesOf ptr (streamTx second) := by
  rw [streamTx, List.map_append, framesOf_append, streamTx, streamTx]

/-- What a round of turns has done to the streams. -/
structure RoundEvolves (lowerBound : LowerBound) (registry : StreamRegistry)
    (heap : Nat → Stream) (emitted : List (Nat × OutFrame)) : Prop where
  streams : ∀ ptr, Stream.Evolves lowerBound (registry.heap ptr) []
    (framesOf ptr (streamTx emitted)) (heap ptr)
  unborn : ∀ ptr, registry.size ≤ ptr → framesOf ptr (streamTx emitted) = []

/-- A turn lets one stream of the registry send. -/
theorem RoundEvolves.turn {registry : StreamRegistry} {heap : Nat → Stream} {encoder : Encoder}
    {emitted : List (Nat × OutFrame)} {target limit : Nat} {turn : Turn} {stream : Stream}
    (evolves : RoundEvolves lowerBound registry heap emitted) (inside : target < registry.size)
    (sent : (heap target).getTxData lowerBound encoder limit = .ok turn)
    (marked : stream = turn.stream ∨
      turn.stream.checkTxData.1 = true ∧ stream = turn.stream.marked) :
    RoundEvolves lowerBound registry (Function.update heap target stream)
      (emitted ++ turn.out.map fun frame => (target, frame)) := by
  have own : Stream.Evolves lowerBound (heap target) [] turn.out stream := by
    rcases marked with rfl | ⟨checked, rfl⟩
    · exact .send sent
    · have sends := (Stream.Evolves.send sent).trans (.marked checked)
      rwa [List.append_nil turn.out] at sends
  refine ⟨fun ptr => ?_, fun ptr outside => ?_⟩
  · rw [framesOf_streamTx, framesOf_turn]
    by_cases mine : target = ptr
    · subst mine
      rw [if_pos rfl, Function.update_self]
      exact (evolves.streams target).trans own
    · rw [if_neg mine, Function.update_of_ne (Ne.symm mine), List.append_nil]
      exact evolves.streams ptr
  · rw [framesOf_streamTx, evolves.unborn ptr outside, List.nil_append, framesOf_turn,
      if_neg (Nat.ne_of_lt (Nat.lt_of_lt_of_le inside outside))]

/-- What a call of `get_tx_data` does to the streams. -/
theorem getTxData_evolves {out : List Tx} (scheduled : client.registry.Scheduled)
    (sent : client.getTxData lowerBound = .ok (next, out)) :
    next.registry.size = client.registry.size ∧
      (∀ ptr, Stream.Evolves lowerBound (client.registry.heap ptr) [] (framesOf ptr out)
        (next.registry.heap ptr)) ∧
      ∀ ptr, client.registry.size ≤ ptr → framesOf ptr out = [] := by
  obtain ⟨commands, _, ⟨same, rfl⟩ | ⟨_, final, ran, same, rfl⟩⟩ := getTxData_spec sent
  · rw [same]
    simp only [framesOf_commands]
    exact ⟨trivial, fun ptr => .refl _ _, fun _ _ => trivial⟩
  · obtain ⟨streams, unborn⟩ := @run_streams lowerBound client.registry client.encoder _
      (fun heap _ emitted => RoundEvolves lowerBound client.registry heap emitted) final scheduled
      (fun _ _ _ _ _ _ _ inside _ evolves sent marked => evolves.turn inside sent marked)
      ⟨fun ptr => .refl _ _, fun _ _ => rfl⟩ ran
    simp only [same, framesOf_append, framesOf_commands, List.nil_append]
    exact ⟨rfl, streams, unborn⟩

/-- A client without streams. -/
theorem Multiplexed.unwritten (empty : client.registry = .create) :
    Multiplexed lowerBound client.unwritten where
  scheduled := empty ▸ StreamRegistry.Scheduled.create
  opened := empty ▸ rfl
  alone _ _ found := by cases found
  unborn _ _ := rfl

/-- A stream is opened. -/
theorem Multiplexed.send {history : Machine.History (Client × Journal) Tx} {request : Request}
    (multiplexed : Multiplexed lowerBound history)
    (reacted : history.state.1.react (.send request) = .ok next) :
    Multiplexed lowerBound
      ⟨(next, history.state.1.noted (.send request) history.state.2), history.emitted⟩ := by
  obtain ⟨scheduled, opened, alone, unborn⟩ := multiplexed
  cases connected : history.state.1.isConnected with
  | false =>
      cases reacted
      have refused : history.state.1.called (history.state.1.initiateSend request) =
          history.state.1 := by
        simp only [initiateSend, connected, Bool.not_false, ↓reduceIte, called]
      have same : history.state.1.noted (.send request) history.state.2 = history.state.2 := by
        simp only [noted, connected, Bool.false_eq_true, ↓reduceIte]
      rw [refused, same]
      exact ⟨scheduled, opened, alone, unborn⟩
  | true =>
      have registry : next.registry = history.state.1.registry.addStream
          history.state.1.nextStreamId (history.state.1.newStream request) := by
        have after := @react_registry _ _ (.send request) (by rintro ⟨⟩) reacted
        simp only [registryAfter, connected, ↓reduceIte] at after
        exact (Except.ok.inj after).symm
      have same : history.state.1.noted (.send request) history.state.2 =
          ⟨history.state.2.opened ++ [history.state.1.newStream request],
            Function.update history.state.2.given history.state.1.registry.size []⟩ := by
        simp only [noted, connected, ↓reduceIte]
      rw [same]
      refine ⟨?_, ?_, fun ptr created found => ?_, fun ptr outside => ?_⟩
      · simp only [registry]
        exact scheduled.addStream rfl rfl
      · simp only [registry, List.length_append, List.length_singleton, opened]
        rfl
      · simp only [registry, StreamRegistry.addStream]
        rcases Nat.lt_or_ge ptr history.state.1.registry.size with inside | outside
        · have differs : ptr ≠ history.state.1.registry.size := Nat.ne_of_lt inside
          rw [List.getElem?_append_left (by rw [opened]; exact inside)] at found
          rw [Function.update_of_ne differs, Function.update_of_ne differs]
          exact alone ptr created found
        · rw [List.getElem?_append_right (by rw [opened]; exact outside), opened] at found
          obtain ⟨last, rfl⟩ := List.getElem?_eq_some_iff.mp found
          obtain rfl : ptr = history.state.1.registry.size := by
            rw [List.length_singleton] at last
            omega
          rw [Function.update_self, Function.update_self, unborn _ (Nat.le_refl _)]
          simp only [Nat.sub_self, List.getElem_cons_zero]
          exact .refl _ _
      · simp only [registry, StreamRegistry.addStream] at outside
        exact unborn ptr (Nat.le_of_succ_le outside)

/-- **A step.** Whatever a client does, its streams evolve on their own. -/
theorem Multiplexed.advance {history after : Machine.History (Client × Journal) Tx}
    (multiplexed : Multiplexed lowerBound history)
    (taken : (journaled lowerBound).advance history event = .ok after) :
    Multiplexed lowerBound after := by
  obtain ⟨state, out, stepped, rfl⟩ := Machine.observed_advance taken
  have scheduled := scheduled_step multiplexed.scheduled stepped
  rcases step_react stepped with ⟨rfl, sent⟩ | ⟨sends, rfl, reacted⟩
  · obtain ⟨size, streams, unborn⟩ := getTxData_evolves multiplexed.scheduled sent
    refine ⟨scheduled, ?_, fun ptr created found => ?_, fun ptr outside => ?_⟩
    · simp only [noted, size]
      exact multiplexed.opened
    · have both := (multiplexed.alone ptr created found).trans (streams ptr)
      rw [← framesOf_append] at both
      exact both
    · simp only [size] at outside
      rw [framesOf_append, multiplexed.unborn ptr outside, unborn ptr outside]
      rfl
  · rw [List.append_nil]
    by_cases opens : ∃ request, event = .send request
    · obtain ⟨request, rfl⟩ := opens
      exact multiplexed.send reacted
    · have closed := fun request same => opens ⟨request, same⟩
      have size : state.registry.size = history.state.1.registry.size :=
        react_size sends closed reacted
      have note : history.state.1.noted event history.state.2 = { history.state.2 with
          given := fun ptr => history.state.2.given ptr ++ history.state.1.givenTo event ptr } := by
        cases event with
        | send request => exact absurd rfl (closed request)
        | _ => rfl
      rw [note]
      refine ⟨scheduled, by simp only [size]; exact multiplexed.opened, ?_, ?_⟩
      · intro ptr created found
        have both := (multiplexed.alone ptr created found).trans
          (@react_evolves lowerBound _ _ _ sends closed reacted ptr)
        rw [List.append_nil] at both
        exact both
      · intro ptr outside
        simp only [size] at outside
        exact multiplexed.unborn ptr outside

/-- A run of a client without streams, with its journal. -/
theorem multiplexed_of_run {events : List Event} {last : Machine.History Client Tx}
    (empty : client.registry = .create)
    (ran : (machine lowerBound).run ⟨client, []⟩ events = .ok last) :
    ∃ journal, (journaled lowerBound).run client.unwritten events =
        .ok ⟨(last.state, journal), last.emitted⟩ ∧
      Multiplexed lowerBound ⟨(last.state, journal), last.emitted⟩ := by
  obtain ⟨journal, observed⟩ :=
    @Machine.observed_run _ _ _ _ _ _ noted _ ⟨[], fun _ => []⟩ _ _ _ ran
  refine ⟨journal, observed, ?_⟩
  exact Machine.run_kept (fun _ _ _ multiplexed taken => multiplexed.advance taken)
    (.unwritten empty) observed

/-- What holds of all frames of a turn holds of all frames that are sent for streams. -/
theorem frames_of_run {holds : OutFrame → Prop} {events : List Event}
    {last : Machine.History Client Tx}
    (sends : ∀ (stream : Stream) encoder limit turn,
      stream.getTxData lowerBound encoder limit = .ok turn → ∀ frame ∈ turn.out, holds frame)
    (empty : client.registry = .create)
    (ran : (machine lowerBound).run ⟨client, []⟩ events = .ok last) {ptr : Nat} {frame : OutFrame}
    (sent : Tx.frame ptr frame ∈ last.emitted) : holds frame := by
  obtain ⟨journal, _, multiplexed⟩ := multiplexed_of_run empty ran
  have member := mem_framesOf.mpr sent
  rcases Nat.lt_or_ge ptr last.state.registry.size with inside | outside
  · obtain ⟨created, found⟩ : ∃ created, journal.opened[ptr]? = some created :=
      ⟨_, List.getElem?_eq_getElem (multiplexed.opened ▸ inside)⟩
    obtain ⟨seen, takes, _, _⟩ := multiplexed.alone ptr created found
    refine @Machine.run_kept _ _ _ _ (Stream.machine lowerBound)
      (fun history => ∀ frame ∈ history.emitted, holds frame) ?_ _ _ _ (List.forall_mem_nil _)
      (takes []) frame member
    intro history event next kept taken
    obtain ⟨state, out, stepped, rfl⟩ := Machine.advance_eq_ok taken
    refine List.forall_mem_append.mpr ⟨kept, ?_⟩
    cases event with
    | send encoder limit =>
        obtain ⟨turn, sent, same⟩ := Outcome.bind_eq_ok.mp stepped
        cases same
        exact sends _ encoder limit turn sent
    | receive received =>
        cases stepped
        exact List.forall_mem_nil _
  · rw [multiplexed.unborn ptr outside] at member
    cases member

/-- **Streams run alone.** In every run of a client, each stream has done what a stream
does on its own from the moment it was opened: it is given the frames that carry its id, its
timer and the end of the connection, it has turns with some encoders and limits, and the
frames that were sent for it are those that it sends then. -/
theorem streams_run_alone (lowerBound : LowerBound) (client : Client) (events : List Event)
    (last : Machine.History Client Tx) (empty : client.registry = .create)
    (ran : (machine lowerBound).run ⟨client, []⟩ events = .ok last) :
    ∃ journal, (journaled lowerBound).run client.unwritten events =
        .ok ⟨(last.state, journal), last.emitted⟩ ∧
      journal.opened.length = last.state.registry.size ∧
      ∀ ptr created, journal.opened[ptr]? = some created →
        ∃ seen, (Stream.machine lowerBound).run ⟨created, []⟩ seen =
            .ok ⟨last.state.registry.heap ptr, framesOf ptr last.emitted⟩ ∧
          Stream.given seen = journal.given ptr := by
  obtain ⟨journal, observed, multiplexed⟩ := multiplexed_of_run empty ran
  refine ⟨journal, observed, multiplexed.opened, fun ptr created found => ?_⟩
  obtain ⟨seen, takes, given, _⟩ := multiplexed.alone ptr created found
  exact ⟨seen, takes [], given⟩

/-- Two requests whose frames come and go in turns. -/
def interleaved : List Event :=
  [.connected, .send (sampleRequest .get [] []), .send (sampleRequest .post [] [[1, 2, 3]]),
    .getTxData, frameRead 1 4 3 [0x88], frameRead 1 5 1 [0x88], .getTxData,
    frameRead 3 0 3 [0, 0, 0, 8]]

/-- Two streams whose frames are interleaved. -/
theorem streams_run_alone_interleaved :
    ∃ last journal, (machine .linear).run start interleaved = .ok last ∧
      (journaled .linear).run create.unwritten interleaved =
        .ok ⟨(last.state, journal), last.emitted⟩ ∧
      journal.opened.length = 2 ∧
      ∀ ptr created, journal.opened[ptr]? = some created →
        ∃ seen, (Stream.machine .linear).run ⟨created, []⟩ seen =
            .ok ⟨last.state.registry.heap ptr, framesOf ptr last.emitted⟩ ∧
          Stream.given seen = journal.given ptr := by
  have passes : ((machine .linear).run start interleaved).toOption.any
      (fun last => decide (last.state.registry.size = 2)) = true := by
    decide +kernel
  obtain ⟨last, ran, checks⟩ := Outcome.exists_ok_of_any passes
  obtain ⟨journal, observed, opened, alone⟩ :=
    streams_run_alone .linear create interleaved last rfl ran
  exact ⟨last, journal, ran, observed, opened.trans (of_decide_eq_true checks), alone⟩

end Client

end H2pp.Http2

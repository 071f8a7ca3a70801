import H2pp.Http2.Scheduling

/-! # The life of a stream

A stream is closed by a RST_STREAM frame that is received, by the one it sends after the
end of the response, or by a disconnect. What `CLOSED` means is left to the callers: the
frame that is received takes the stream out of the map and out of the queue, the one that
is sent does neither, and `get_tx_data` opens every stream it serves.
-/

namespace H2pp.Http2

open Utils Hpack

namespace StreamRegistry

variable {lowerBound : LowerBound} {limit : Nat} {registry : StreamRegistry}

/-- The frames that have been emitted are of streams that were in the queue. -/
theorem served_members {round next : Round} {slot : Option Nat} {remaining : List (Option Nat)}
    {out : List (Nat × OutFrame)} (rounds : registry.RoundScheduled round (slot :: remaining))
    (served : Served lowerBound limit round slot next out) :
    ∀ entry ∈ out, entry.1 ∈ registry.queued := by
  have own {ptr : Nat} (rounds : registry.RoundScheduled round (some ptr :: remaining))
      {frames : List OutFrame} :
      ∀ entry ∈ frames.map (fun frame => (ptr, frame)), entry.1 ∈ registry.queued := by
    refine List.forall_mem_map.mpr fun _ _ => rounds.members ptr (List.mem_append_right _ ?_)
    rw [List.reduceOption_cons_of_some]
    exact List.mem_cons_self
  cases served with
  | skipped _ => exact fun _ member => nomatch member
  | again _ _ _ => exact own rounds
  | once _ _ _ => exact own rounds

/-- The state of a stream after its turn: it is closed if it was half closed. -/
theorem turn_state {stream : Stream} {encoder : Encoder} {turn : Turn}
    (sent : stream.getTxData lowerBound encoder limit = .ok turn) :
    turn.stream.httpState = .closed →
      stream.httpState = .halfClosed ∨ stream.httpState = .closed := by
  intro closed
  rcases Stream.getTxData_status sent with ⟨half, _⟩ | ⟨_, ⟨same, _⟩ | same⟩
  · exact .inl half
  · exact .inr ((congrArg (·.2.2) same).symm.trans closed)
  · cases (congrArg (·.2.2) same).symm.trans closed

/-- A half closed stream with nothing else to send has nothing to send after its turn. -/
theorem turn_ends {stream : Stream} {encoder : Encoder} {turn : Turn}
    (half : stream.httpState = .halfClosed)
    (done : stream.localWindow.needUpdate = false ∧ stream.request.headerList = [] ∧
      stream.request.bodyList = [])
    (sent : stream.getTxData lowerBound encoder limit = .ok turn) :
    turn.stream.hasTxData = false := by
  rcases Stream.getTxData_spec sent with ⟨_, rfl⟩ | ⟨other, _⟩ | ⟨other, _⟩
  · simp only [Stream.hasTxData, done.1, done.2.1, done.2.2, ne_eq, not_true_eq_false, decide_false,
      Bool.or_false, reduceCtorEq]
  · exact absurd half other
  · exact absurd half other

end StreamRegistry

namespace Client

open StreamRegistry

variable {lowerBound : LowerBound} {history next : Machine.History Client Tx} {event : Event}

/-! ## Closed streams in the map -/

/-- No stream in the map has finished. -/
def NoneFinished (registry : StreamRegistry) : Prop :=
  ∀ id ptr, registry.getStream id = some ptr → (registry.heap ptr).isFinished = false

/-- No stream in the map ends its life by sending: when `get_tx_data` gets to the streams,
none that is in the map and in the queue is half closed. -/
def NoneEnds (history : Machine.History Client Tx) (event : Event) : Prop :=
  event.sends = true → history.state.ServesStreams →
    ∀ entry ∈ history.state.registry.streamMap, entry.2 ∈ history.state.registry.queued →
      (history.state.registry.heap entry.2).httpState ≠ .halfClosed

instance (history : Machine.History Client Tx) (event : Event) :
    Decidable (NoneEnds history event) :=
  inferInstanceAs (Decidable (_ → _ → _))

/-- An event other than sending takes the streams that it finishes out of the map. -/
theorem Changed.noneFinished {client : Client} {registry : StreamRegistry}
    (changed : Changed client event registry) (scheduled : client.registry.Scheduled)
    (none : NoneFinished client.registry) : NoneFinished registry := by
  intro other ptr found
  cases changed with
  | same => exact none other ptr found
  | added connected =>
      simp only [addStream]
      rcases getStream_addStream found with earlier | ⟨rfl, rfl⟩
      · rw [Function.update_of_ne (Nat.ne_of_lt (scheduled.mapped other ptr earlier).1)]
        exact none other ptr earlier
      · rw [Function.update_self]
        rfl
  | @timeout first =>
      have state := (Stream.receive_status (client.registry.heap first) .timeout).1
      have same : (client.registry.heap first).onTimeout.isFinished =
          (client.registry.heap first).isFinished :=
        congrArg (fun state => decide (state = HttpState.closed)) state
      exact (update_same Stream.isFinished same ptr).trans (none other ptr found)
  | reset => cases found
  | @erased _ id first received slots delivered look finished emptied =>
      obtain ⟨differs, earlier⟩ := lookup_filter found
      have apart : ptr ≠ first := by
        rintro rfl
        exact differs ((scheduled.mapped other ptr earlier).2.symm.trans
          (scheduled.mapped id ptr look).2)
      simp only [Function.update_of_ne apart]
      exact none other ptr earlier
  | @received _ id first received delivered look unfinished _ =>
      by_cases same : ptr = first
      · simp only [same, Function.update_self]
        exact unfinished
      · simp only [Function.update_of_ne same]
        exact none other ptr found
  | @enqueued _ id first received delivered look unfinished _ =>
      by_cases same : ptr = first
      · simp only [same, Function.update_self]
        exact unfinished
      · simp only [Function.update_of_ne same]
        exact none other ptr found

private theorem mem_of_getStream {registry : StreamRegistry} {id ptr : Nat}
    (found : registry.getStream id = some ptr) : (id, ptr) ∈ registry.streamMap := by
  obtain ⟨front, back, split, _⟩ := List.lookup_eq_some_iff.mp found
  rw [split]
  exact List.mem_append_right _ List.mem_cons_self

/-- A round in which no stream of the map ends leaves none finished. -/
theorem noneFinished_round {encoder : Encoder} {limit : Nat} {registry : StreamRegistry}
    {final : Machine.History Round (Nat × OutFrame)} (scheduled : registry.Scheduled)
    (none : NoneFinished registry)
    (alive : ∀ entry ∈ registry.streamMap, entry.2 ∈ registry.queued →
      (registry.heap entry.2).httpState ≠ .halfClosed)
    (ran : (scheduler lowerBound limit).run ⟨⟨registry.heap, encoder, 0, []⟩, []⟩
      registry.queue = .ok final) : NoneFinished (withRound registry final.state) := by
  refine (@run_all_turns lowerBound registry encoder limit (fun round _ =>
    ∀ id ptr, registry.getStream id = some ptr → (round.state.heap ptr).isFinished = false)
    final scheduled ?_ none ran).2
  intro history slot remaining next out rounds none served id ptr found
  have before := none id ptr found
  -- a turn finishes only a stream that was half closed when the round began
  have turned {turn : Turn} (rounds : registry.RoundScheduled history.state (some ptr :: remaining))
      (sent : (history.state.heap ptr).getTxData lowerBound history.state.encoder
        (sizeSub limit history.state.bytesUsed) = .ok turn) : turn.stream.isFinished = false := by
    refine decide_eq_false fun closed => ?_
    have member : ptr ∈ (some ptr :: remaining).reduceOption := by
      rw [List.reduceOption_cons_of_some]
      exact List.mem_cons_self
    rcases turn_state sent closed with half | already
    · rw [rounds.waiting ptr (.inl member)] at half
      exact alive (id, ptr) (mem_of_getStream found)
        (rounds.members ptr (List.mem_append_right _ member)) half
    · exact of_decide_eq_false before already
  cases served with
  | skipped _ => exact before
  | @again first turn ready sent checked =>
      by_cases same : ptr = first
      · subst same
        simp only [Function.update_self]
        exact turned rounds sent
      · simp only [Function.update_of_ne same]
        exact before
  | @once first turn ready sent checked =>
      by_cases same : ptr = first
      · subst same
        simp only [Function.update_self]
        exact turned rounds sent
      · simp only [Function.update_of_ne same]
        exact before

/-- **Closed streams do not stay in the map** in the runs in which none of the map ends
by sending. -/
theorem closed_streams_erased (lowerBound : LowerBound) (events : List Event)
    (last : Machine.History Client Tx)
    (alive : (machine lowerBound).Along NoneEnds start events)
    (ran : (machine lowerBound).run start events = .ok last) :
    ∀ id ptr, last.state.registry.getStream id = some ptr →
      (last.state.registry.heap ptr).isFinished = false := by
  have fresh : NoneFinished start.state.registry := by
    intro _ _ found
    cases found
  refine (@Machine.run_invariant _ _ _ _ _ _ (fun history =>
    history.state.registry.Scheduled ∧ NoneFinished history.state.registry) ?_ _ _ _
    ⟨Scheduled.create, fresh⟩ alive ran).2
  rintro history event next ⟨scheduled, none⟩ alive taken
  obtain ⟨state, out, stepped, rfl⟩ := Machine.advance_eq_ok taken
  refine ⟨scheduled_step scheduled stepped, ?_⟩
  rcases step_cases stepped with ⟨rfl, sent⟩ | ⟨_, _, changed⟩
  · obtain ⟨_, _, ⟨same, _⟩ | ⟨serves, final, ran, same, _⟩⟩ := getTxData_spec sent
    · exact same ▸ none
    · exact same ▸ noneFinished_round scheduled none (alive rfl serves) ran
  · exact changed.noneFinished scheduled none

/-- Two requests, of which the server resets the first. -/
def oneReset : List Event :=
  [.connected, .send (sampleRequest .get [] []), .send (sampleRequest .get [] []), .getTxData,
    frameRead 3 0 1 [0, 0, 0, 8]]

/-- Only the other one is left in the map. -/
theorem closed_streams_erased_reset :
    ∃ last, (machine .linear).run start oneReset = .ok last ∧
      last.state.registry.streamMap = [(0x3000000, 1)] ∧
      (last.state.registry.heap 1).isFinished = false := by
  have passes : ((machine .linear).run start oneReset).toOption.any (fun last => decide (
      (machine .linear).Along NoneEnds start oneReset ∧
      last.state.registry.streamMap = [(0x3000000, 1)])) = true := by
    decide +kernel
  obtain ⟨last, ran, checks⟩ := Outcome.exists_ok_of_any passes
  obtain ⟨alive, left⟩ := of_decide_eq_true checks
  have found : last.state.registry.getStream 0x3000000 = some 1 := by
    rw [getStream, left]
    rfl
  exact ⟨last, ran, left, closed_streams_erased .linear _ last alive ran _ _ found⟩

/-- A request whose response has ended: it is closed and still in the map. -/
theorem closed_streams_left :
    ∃ last, (machine .linear).run start
        [.connected, .send (sampleRequest .get [] []), .getTxData, frameRead 1 5 1 [0x88],
          .getTxData] = .ok last ∧
      last.state.registry.getStream 0x1000000 = some 0 ∧
      (last.state.registry.heap 0).isFinished = true := by
  have passes : ((machine .linear).run start
      [.connected, .send (sampleRequest .get [] []), .getTxData, frameRead 1 5 1 [0x88],
        .getTxData]).toOption.any (fun last => decide (
      last.state.registry.getStream 0x1000000 = some 0 ∧
      (last.state.registry.heap 0).isFinished = true)) = true := by
    decide +kernel
  obtain ⟨last, ran, checks⟩ := Outcome.exists_ok_of_any passes
  exact ⟨last, ran, of_decide_eq_true checks⟩

/-! ## Closed streams stay closed -/

/-- A request of the user. -/
def Event.requests : Event → Bool
  | .send _ => true
  | _ => false

/-- A step that leaves closed streams alone: a new stream gets an id that no stream in
the map or in the queue has, no closed stream receives the end of a response, and a half
closed stream that `get_tx_data` serves has nothing else to send. -/
structure LeavesClosed (history : Machine.History Client Tx) (event : Event) : Prop where
  fresh : event.requests = true →
    history.state.registry.getStream history.state.nextStreamId = none ∧
      ∀ ptr ∈ history.state.registry.queued,
        (history.state.registry.heap ptr).httpId ≠ history.state.nextStreamId
  silent : ∀ delivery ∈ history.state.delivery event,
    ∀ ptr ∈ history.state.registry.getStream delivery.1,
      (history.state.registry.heap ptr).httpState = .closed → delivery.2.endsStream = false
  done : event.sends = true → history.state.ServesStreams →
    ∀ ptr ∈ history.state.registry.queued,
      (history.state.registry.heap ptr).httpState = .halfClosed →
        (history.state.registry.heap ptr).localWindow.needUpdate = false ∧
        (history.state.registry.heap ptr).request.headerList = [] ∧
        (history.state.registry.heap ptr).request.bodyList = []

instance (history : Machine.History Client Tx) (event : Event) :
    Decidable (LeavesClosed history event) :=
  decidable_of_iff (_ ∧ _ ∧ _) ⟨fun ⟨fresh, silent, done⟩ => ⟨fresh, silent, done⟩,
    fun ⟨fresh, silent, done⟩ => ⟨fresh, silent, done⟩⟩

/-- What holds of the queue then: no stream in it is closed, and a stream of the map is
the only one in it with its id. -/
structure Lively (registry : StreamRegistry) : Prop where
  scheduled : registry.Scheduled
  alone : ∀ id ptr, registry.getStream id = some ptr →
    ∀ other ∈ registry.queued, (registry.heap other).httpId = id → other = ptr
  alive : ∀ ptr ∈ registry.queued, (registry.heap ptr).httpState ≠ .closed

namespace Lively

variable {registry : StreamRegistry} {ptr : Nat} {stream : Stream}

/-- A new stream is alone if its id is new. -/
theorem addStream {id : Nat} (lively : Lively registry)
    (kept : (registry.addStream id stream).Scheduled) (own : stream.httpId = id)
    (absent : registry.getStream id = none)
    (fresh : ∀ ptr ∈ registry.queued, (registry.heap ptr).httpId ≠ id)
    (opens : stream.httpState ≠ .closed) : Lively (registry.addStream id stream) := by
  have queue : (registry.addStream id stream).queued = registry.queued ++ [registry.size] :=
    List.reduceOption_append _ _
  have old (ptr : Nat) (member : ptr ∈ registry.queued) :
      (registry.addStream id stream).heap ptr = registry.heap ptr :=
    Function.update_of_ne (Nat.ne_of_lt (lively.scheduled.marked ptr member).1) _ _
  have added : (registry.addStream id stream).heap registry.size = stream :=
    Function.update_self _ _ _
  refine ⟨kept, fun other ptr found waiting member named => ?_, fun ptr member => ?_⟩
  · rw [queue, List.mem_append, List.mem_singleton] at member
    rcases getStream_addStream found with earlier | ⟨rfl, rfl⟩
    · rcases member with member | rfl
      · rw [old waiting member] at named
        exact lively.alone other ptr earlier waiting member named
      · rw [added, own] at named
        subst named
        cases absent.symm.trans earlier
    · rcases member with member | last
      · rw [old waiting member] at named
        exact absurd named (fresh waiting member)
      · exact last
  · rw [queue, List.mem_append, List.mem_singleton] at member
    rcases member with member | rfl
    · rw [old ptr member]
      exact lively.alive ptr member
    · rw [added]
      exact opens

/-- A stream that changes and keeps its id stays alone, and alive if it is not closed. -/
theorem update (lively : Lively registry)
    (kept : { registry with heap := Function.update registry.heap ptr stream }.Scheduled)
    (same : stream.httpId = (registry.heap ptr).httpId)
    (opens : ptr ∈ registry.queued → stream.httpState ≠ .closed) :
    Lively { registry with heap := Function.update registry.heap ptr stream } := by
  refine ⟨kept, fun id first found waiting member named => ?_, fun other member => ?_⟩
  · exact lively.alone id first found waiting member
      ((update_same Stream.httpId same waiting).symm.trans named)
  · by_cases replaced : other = ptr
    · subst replaced
      simp only [Function.update_self]
      exact opens member
    · simp only [Function.update_of_ne replaced]
      exact lively.alive other member

/-- A stream of the map can go to the end of the queue. -/
theorem enqueue {id : Nat} (lively : Lively registry)
    (kept : { registry with queue := registry.queue ++ [some ptr] }.Scheduled)
    (found : registry.getStream id = some ptr) (opens : (registry.heap ptr).httpState ≠ .closed) :
    Lively { registry with queue := registry.queue ++ [some ptr] } := by
  have own := (lively.scheduled.mapped id ptr found).2
  refine ⟨kept, fun other first look waiting member named => ?_, fun other member => ?_⟩
  · rw [queued, List.reduceOption_append, List.mem_append] at member
    rcases member with earlier | last
    · exact lively.alone other first look waiting earlier named
    · obtain rfl : waiting = ptr := List.mem_singleton.mp last
      have ids : id = other := own.symm.trans named
      exact Option.some.inj (found.symm.trans (ids ▸ look))
  · rw [queued, List.reduceOption_append, List.mem_append] at member
    rcases member with earlier | last
    · exact lively.alive other earlier
    · obtain rfl : other = ptr := List.mem_singleton.mp last
      exact opens

end Lively

/-- An event other than sending keeps closed streams out of the queue. -/
theorem Changed.lively {client : Client} {registry : StreamRegistry} {emitted : List Tx}
    (changed : Changed client event registry) (lively : Lively client.registry)
    (leaves : LeavesClosed ⟨client, emitted⟩ event) : Lively registry := by
  have scheduled := lively.scheduled
  have kept := changed.scheduled scheduled
  have unfinished_ne {stream : Stream} (unfinished : stream.isFinished = false) :
      stream.httpState ≠ .closed := of_decide_eq_false unfinished
  cases changed with
  | same => exact lively
  | @added request connected =>
      obtain ⟨absent, fresh⟩ := leaves.fresh rfl
      exact lively.addStream kept rfl absent fresh nofun
  | @timeout first =>
      have state := (Stream.receive_status (client.registry.heap first) .timeout).1
      refine lively.update kept (Stream.receive_httpId _ .timeout) fun member closed => ?_
      exact lively.alive first member (state.symm.trans closed)
  | reset => exact ⟨kept, fun _ _ found => (nomatch found), fun _ member => (nomatch member)⟩
  | @erased _ id first received slots delivered look finished emptied =>
      have named := Stream.receive_httpId (client.registry.heap first) received
      have own := (scheduled.mapped id first look).2
      obtain ⟨fewer, gone⟩ := resetSlot_spec emptied
      refine ⟨kept, fun other ptr found waiting member same => ?_, fun ptr member => ?_⟩
      · exact lively.alone other ptr (lookup_filter found).2 waiting (fewer.subset member)
          ((update_same Stream.httpId named waiting).symm.trans same)
      · have apart : ptr ≠ first := by
          rintro rfl
          refine gone ptr scheduled.once (fun other member same => ?_) ?_ member
          · exact lively.alone id ptr look other member
              ((update_same Stream.httpId named other).symm.trans same)
          · exact (update_same Stream.httpId named ptr).trans own
        simp only [Function.update_of_ne apart]
        exact lively.alive ptr (fewer.subset member)
  | @received _ id first received delivered look unfinished _ =>
      exact lively.update kept (Stream.receive_httpId _ received) fun _ =>
        unfinished_ne unfinished
  | @enqueued _ id first received delivered look unfinished checked =>
      have named : ((client.registry.heap first).receive received).marked.httpId =
          (client.registry.heap first).httpId :=
        Stream.receive_httpId (client.registry.heap first) received
      have updated := lively.update (scheduled.update named fun _ => rfl) named fun _ =>
        unfinished_ne unfinished
      refine updated.enqueue kept look ?_
      simp only [Function.update_self]
      exact unfinished_ne unfinished

section Round

variable {encoder : Encoder} {limit : Nat} {registry : StreamRegistry}

/-- A turn lets no closed stream into the queue, if half closed streams have nothing else
to send. -/
theorem lively_served {round after : Round} {slot : Option Nat} {remaining : List (Option Nat)}
    {out : List (Nat × OutFrame)} (lively : Lively registry)
    (done : ∀ ptr ∈ registry.queued, (registry.heap ptr).httpState = .halfClosed →
      (registry.heap ptr).localWindow.needUpdate = false ∧
      (registry.heap ptr).request.headerList = [] ∧ (registry.heap ptr).request.bodyList = [])
    (rounds : registry.RoundScheduled round (slot :: remaining))
    (next : ∀ ptr ∈ round.nextQueue, (round.heap ptr).httpState ≠ .closed)
    (served : Served lowerBound limit round slot after out) :
    ∀ ptr ∈ after.nextQueue, (after.heap ptr).httpState ≠ .closed := by
  intro ptr member
  cases served with
  | skipped _ => exact next ptr member
  | @again first turn ready sent checked =>
      have own : first ∈ (some first :: remaining).reduceOption := by
        rw [List.reduceOption_cons_of_some]
        exact List.mem_cons_self
      have queued := rounds.members first (List.mem_append_right _ own)
      have same := rounds.waiting first (.inl own)
      by_cases last : ptr = first
      · subst last
        simp only [Function.update_self, Stream.marked_httpState]
        intro closed
        rcases turn_state sent closed with half | already
        · rw [same] at half
          have idle := turn_ends half (done ptr queued half) (same ▸ sent)
          exact Bool.false_ne_true (idle.symm.trans (Stream.checkTxData_true checked).2.1)
        · exact lively.alive ptr queued (same ▸ already)
      · simp only [Function.update_of_ne last]
        exact next ptr ((List.mem_append.mp member).resolve_right fun single =>
          last (List.mem_singleton.mp single))
  | @once first turn ready sent checked =>
      have apart : ptr ≠ first := by
        rintro rfl
        have once := rounds.once
        rw [List.reduceOption_cons_of_some] at once
        exact (List.nodup_cons.mp (List.nodup_middle.mp once)).1 (List.mem_append_left _ member)
      simp only [Function.update_of_ne apart]
      exact next ptr member

/-- A round keeps closed streams out of the queue. What it sends is of streams in the
queue, and the others stay as they are. -/
theorem lively_round {final : Machine.History Round (Nat × OutFrame)} (lively : Lively registry)
    (done : ∀ ptr ∈ registry.queued, (registry.heap ptr).httpState = .halfClosed →
      (registry.heap ptr).localWindow.needUpdate = false ∧
      (registry.heap ptr).request.headerList = [] ∧ (registry.heap ptr).request.bodyList = [])
    (ran : (scheduler lowerBound limit).run ⟨⟨registry.heap, encoder, 0, []⟩, []⟩
      registry.queue = .ok final) :
    Lively (withRound registry final.state) ∧ (∀ entry ∈ final.emitted, entry.1 ∈ registry.queued) ∧
      ∀ ptr, ptr ∉ registry.queued → final.state.heap ptr = registry.heap ptr := by
  obtain ⟨rounds, next, emitted⟩ := @run_all_turns lowerBound registry encoder limit
    (fun round _ => (∀ ptr ∈ round.state.nextQueue, (round.state.heap ptr).httpState ≠ .closed) ∧
      ∀ entry ∈ round.emitted, entry.1 ∈ registry.queued)
    final lively.scheduled
    (fun _ _ _ _ _ rounds holds served => ⟨lively_served lively done rounds holds.1 served,
      List.forall_mem_append.mpr ⟨holds.2, served_members rounds served⟩⟩)
    ⟨fun _ member => (nomatch member), fun _ member => (nomatch member)⟩ ran
  have queue := queued_withRound registry final.state
  refine ⟨⟨scheduled_withRound lively.scheduled rounds, fun id ptr found other member named => ?_,
    fun ptr member => ?_⟩, emitted, fun ptr absent => rounds.waiting ptr (.inr absent)⟩
  · rw [queue] at member
    exact lively.alone id ptr found other (rounds.members other member)
      ((rounds.ids other).symm.trans named)
  · rw [queue, List.reduceOption_nil, List.append_nil] at member
    exact next ptr member

end Round

/-- An event other than sending leaves a closed stream closed. -/
theorem Changed.closed {client : Client} {registry : StreamRegistry} {emitted : List Tx} {ptr : Nat}
    (changed : Changed client event registry) (leaves : LeavesClosed ⟨client, emitted⟩ event)
    (inside : ptr < client.registry.size)
    (closed : (client.registry.heap ptr).httpState = .closed) :
    (registry.heap ptr).httpState = .closed ∧ ptr < registry.size := by
  have received {id first : Nat} {received : Stream.Received}
      (delivered : client.delivery event = some (id, received))
      (look : client.registry.getStream id = some first) (stream : Stream)
      (state : stream.httpState = ((client.registry.heap first).receive received).httpState) :
      (Function.update client.registry.heap first stream ptr).httpState = .closed := by
    by_cases same : ptr = first
    · subst same
      have silent := leaves.silent (id, received) delivered ptr look closed
      rw [Function.update_self, state, (Stream.receive_status _ received).1, closed]
      cases received with
      | reset err => rfl
      | cleanup ec => rfl
      | _ => simp only [Stream.Received.stateAfter, silent, Bool.false_eq_true, ↓reduceIte]
    · rw [Function.update_of_ne same]
      exact closed
  cases changed with
  | same => exact ⟨closed, inside⟩
  | added connected =>
      simp only [addStream, Function.update_of_ne (Nat.ne_of_lt inside)]
      exact ⟨closed, Nat.lt_succ_of_lt inside⟩
  | @timeout first =>
      have state := (Stream.receive_status (client.registry.heap first) .timeout).1
      exact ⟨(update_same Stream.httpState state ptr).trans closed, inside⟩
  | @reset ec =>
      refine ⟨?_, inside⟩
      simp only [StreamRegistry.reset]
      split
      · exact (Stream.receive_status _ (.cleanup ec)).1
      · exact closed
  | erased delivered look _ _ => exact ⟨received delivered look _ rfl, inside⟩
  | received delivered look _ _ => exact ⟨received delivered look _ rfl, inside⟩
  | enqueued delivered look _ _ => exact ⟨received delivered look _ rfl, inside⟩

/-- A step that leaves closed streams alone. -/
theorem lively_step {client after : Client} {out emitted : List Tx}
    (lively : Lively client.registry) (leaves : LeavesClosed ⟨client, emitted⟩ event)
    (stepped : (machine lowerBound).step client event = .ok (after, out)) :
    Lively after.registry ∧ ∀ ptr < client.registry.size,
      (client.registry.heap ptr).httpState = .closed →
      ((after.registry.heap ptr).httpState = .closed ∧ ptr < after.registry.size) ∧
        ∀ frame, Tx.frame ptr frame ∉ out := by
  rcases step_cases stepped with ⟨rfl, sent⟩ | ⟨_, rfl, changed⟩
  · obtain ⟨commands, _, ⟨same, rfl⟩ | ⟨serves, final, ran, same, rfl⟩⟩ := getTxData_spec sent
    · rw [same]
      refine ⟨lively, fun ptr inside closed => ⟨⟨closed, inside⟩, fun frame member => ?_⟩⟩
      obtain ⟨_, _, other⟩ := List.mem_map.mp member
      cases other
    · obtain ⟨next, emitted, others⟩ := lively_round lively (leaves.done rfl serves) ran
      rw [same]
      refine ⟨next, fun ptr inside closed => ?_⟩
      have absent : ptr ∉ client.registry.queued := fun member => lively.alive ptr member closed
      refine ⟨⟨(congrArg Stream.httpState (others ptr absent)).trans closed, inside⟩, ?_⟩
      intro frame member
      rcases List.mem_append.mp member with command | turn
      · obtain ⟨_, _, other⟩ := List.mem_map.mp command
        cases other
      · obtain ⟨entry, sent, own⟩ := List.mem_map.mp turn
        cases own
        exact absent (emitted entry sent)
  · refine ⟨changed.lively lively leaves, fun ptr inside closed => ?_⟩
    exact ⟨changed.closed leaves inside closed, fun _ member => nomatch member⟩

/-- **Closed is absorbing** in the runs whose steps leave closed streams alone: a stream
that is closed stays so, is not in the queue, and sends nothing any more. -/
theorem closed_absorbing (lowerBound : LowerBound) (before after : List Event)
    (middle last : Machine.History Client Tx)
    (leaves : (machine lowerBound).Along LeavesClosed start (before ++ after))
    (reached : (machine lowerBound).run start before = .ok middle)
    (ran : (machine lowerBound).run middle after = .ok last)
    (ptr : Nat) (inside : ptr < middle.state.registry.size)
    (closed : (middle.state.registry.heap ptr).httpState = .closed) :
    (last.state.registry.heap ptr).httpState = .closed ∧ ptr ∉ last.state.registry.queued ∧
      ∃ out, last.emitted = middle.emitted ++ out ∧ ∀ frame, Tx.frame ptr frame ∉ out := by
  have fresh : Lively start.state.registry :=
    ⟨Scheduled.create, fun _ _ found => (nomatch found), fun _ member => (nomatch member)⟩
  obtain ⟨first, second⟩ := Machine.along_append leaves reached
  have lively : Lively middle.state.registry := by
    refine @Machine.run_invariant _ _ _ _ _ _ (fun history => Lively history.state.registry)
      ?_ _ _ _ fresh first reached
    intro history event next lively leaves taken
    obtain ⟨state, out, stepped, rfl⟩ := Machine.advance_eq_ok taken
    exact (lively_step lively leaves stepped).1
  obtain ⟨lively, ⟨closed, _⟩, out, appended, silent⟩ :=
    @Machine.run_invariant _ _ _ _ _ _ (fun history => Lively history.state.registry ∧
      ((history.state.registry.heap ptr).httpState = .closed ∧
        ptr < history.state.registry.size) ∧
      ∃ out, history.emitted = middle.emitted ++ out ∧ ∀ frame, Tx.frame ptr frame ∉ out)
      (by
        rintro history event next ⟨lively, ⟨closed, inside⟩, out, appended, silent⟩ leaves taken
        obtain ⟨state, more, stepped, rfl⟩ := Machine.advance_eq_ok taken
        obtain ⟨next, others⟩ := lively_step lively leaves stepped
        obtain ⟨still, quiet⟩ := others ptr inside closed
        refine ⟨next, still, out ++ more, ?_, fun frame member => ?_⟩
        · rw [appended, List.append_assoc]
        · exact (List.mem_append.mp member).elim (silent frame) (quiet frame))
      _ _ _ ⟨lively, ⟨closed, inside⟩, [], (List.append_nil _).symm, fun _ => List.not_mem_nil⟩
      second ran
  exact ⟨closed, fun member => lively.alive ptr member closed, out, appended, silent⟩

/-- A request whose response has ended, and which has been closed. -/
def answered : List Event :=
  [.connected, .send (sampleRequest .get [] []), .getTxData, frameRead 1 5 1 [0x88], .getTxData]

/-- A run in two parts. -/
def runTwice (before after : List Event) :
    Except Failure (Machine.History Client Tx × Machine.History Client Tx) := do
  let middle ← (machine .linear).run start before
  let last ← (machine .linear).run middle after
  .ok (middle, last)

private theorem runTwice_ok {before after : List Event} {middle last : Machine.History Client Tx}
    (both : runTwice before after = .ok (middle, last)) :
    (machine .linear).run start before = .ok middle ∧
      (machine .linear).run middle after = .ok last := by
  obtain ⟨_, reached, rest⟩ := Outcome.bind_eq_ok.mp both
  obtain ⟨_, ran, same⟩ := Outcome.bind_eq_ok.mp rest
  cases same
  exact ⟨reached, ran⟩

/-- A late WINDOW_UPDATE frame for it changes nothing. -/
theorem closed_absorbing_late_update :
    ∃ middle last, (machine .linear).run start answered = .ok middle ∧
      (machine .linear).run middle [frameRead 8 0 1 [0, 0, 0, 200], .getTxData] = .ok last ∧
      (middle.state.registry.heap 0).httpState = .closed ∧
      (last.state.registry.heap 0).httpState = .closed ∧
      ∃ out, last.emitted = middle.emitted ++ out ∧ ∀ frame, Tx.frame 0 frame ∉ out := by
  have passes : (runTwice answered [frameRead 8 0 1 [0, 0, 0, 200], .getTxData]).toOption.any
      (fun (middle, _) => decide (
        (machine .linear).Along LeavesClosed start
          (answered ++ [frameRead 8 0 1 [0, 0, 0, 200], .getTxData]) ∧
        0 < middle.state.registry.size ∧
        (middle.state.registry.heap 0).httpState = .closed)) = true := by
    decide +kernel
  obtain ⟨⟨middle, last⟩, both, checks⟩ := Outcome.exists_ok_of_any passes
  obtain ⟨reached, ran⟩ := runTwice_ok both
  obtain ⟨leaves, inside, closed⟩ := of_decide_eq_true checks
  obtain ⟨still, _, silent⟩ := closed_absorbing .linear _ _ middle last leaves reached ran 0 inside
    closed
  exact ⟨middle, last, reached, ran, closed, still, silent⟩

/-- An upload of 100 bytes whose response ends before all of it could be sent. -/
def answeredEarly : List Event :=
  smallWindow ++ [.send (sampleRequest .post [] [List.replicate 100 7]), .getTxData,
    frameRead 1 5 1 [0x88], .getTxData]

/-- The stream of the upload is closed, opened again by the next call, and goes on
sending. -/
theorem closed_reopened :
    ∃ middle last, (machine .linear).run start answeredEarly = .ok middle ∧
      (machine .linear).run middle [.getTxData] = .ok last ∧
      (middle.state.registry.heap 0).httpState = .closed ∧
      (last.state.registry.heap 0).httpState = .opened ∧
      last.emitted.length = middle.emitted.length + 1 := by
  have passes : (runTwice answeredEarly [.getTxData]).toOption.any
      (fun (middle, last) => decide (
        (middle.state.registry.heap 0).httpState = .closed ∧
        (last.state.registry.heap 0).httpState = .opened ∧
        last.emitted.length = middle.emitted.length + 1)) = true := by
    decide +kernel
  obtain ⟨⟨middle, last⟩, both, checks⟩ := Outcome.exists_ok_of_any passes
  obtain ⟨reached, ran⟩ := runTwice_ok both
  exact ⟨middle, last, reached, ran, of_decide_eq_true checks⟩

end Client

end H2pp.Http2

import H2pp.Http2.Scheduling

/-! # The queue of the streams

The search of `erase` asks every slot of the queue for its stream, and a slot that an
earlier `erase` has emptied has none. Only a round of `get_data` removes the empty slots.
Apart from that the queue is right: a stream that has not finished waits in it exactly as
long as it has something to send.
-/

namespace H2pp.Http2

open Utils Hpack

/-! ## Empty slots -/

namespace StreamRegistry

/-- No slot is empty, or a stream with the id stands in front of all empty slots. -/
def HolesBehind (registry : StreamRegistry) (id : Nat) : Prop :=
  none ∉ registry.queue ∨ ∃ front ptr back, registry.queue = front ++ some ptr :: back ∧
    none ∉ front ∧ (registry.heap ptr).httpId = id

/-- The search of `erase` is defined when every empty slot is behind what it looks for. -/
theorem resetSlot_defined_iff {heap : Nat → Stream} {id : Nat} {slots : List (Option Nat)} :
    resetSlot heap id slots ≠ .error .undefinedBehaviour ↔
      none ∉ slots ∨ ∃ front ptr back, slots = front ++ some ptr :: back ∧ none ∉ front ∧
        (heap ptr).httpId = id := by
  induction slots with
  | nil => exact ⟨fun _ => .inl List.not_mem_nil, fun _ => Outcome.ok_ne_error _ _⟩
  | cons slot slots ih =>
      cases slot with
      | none =>
          refine ⟨fun defined => absurd rfl defined, ?_⟩
          rintro (full | ⟨front, ptr, back, split, full, _⟩)
          · exact absurd List.mem_cons_self full
          · cases front with
            | nil => cases split
            | cons first front =>
                cases split
                exact absurd List.mem_cons_self full
      | some first =>
          unfold resetSlot
          split
          · rename_i found
            exact ⟨fun _ => .inr ⟨[], first, slots, rfl, List.not_mem_nil, found⟩,
              fun _ => Outcome.ok_ne_error _ _⟩
          · rename_i other
            rw [Outcome.bind_ok_ne_error, ih, List.mem_cons, not_or]
            refine or_congr ⟨fun full => ⟨(Option.some_ne_none _).symm, full⟩, And.right⟩ ⟨?_, ?_⟩
            · rintro ⟨front, ptr, back, split, full, found⟩
              refine ⟨some first :: front, ptr, back, congrArg (some first :: ·) split, ?_, found⟩
              rw [List.mem_cons, not_or]
              exact ⟨(Option.some_ne_none _).symm, full⟩
            · rintro ⟨front, ptr, back, split, full, found⟩
              cases front with
              | nil =>
                  cases split
                  exact absurd found other
              | cons slot front =>
                  cases split
                  exact ⟨front, ptr, back, rfl, fun member => full (List.mem_cons_of_mem _ member),
                    found⟩

end StreamRegistry

namespace Client

open StreamRegistry

/-- The call of `invoke_for_stream` that an event leads to asks no empty slot for its
stream. -/
def SlotsDefined (history : Machine.History Client Tx) (event : Event) : Prop :=
  history.state.registry.deliver (history.state.delivery event) ≠ .error .undefinedBehaviour

instance (history : Machine.History Client Tx) (event : Event) :
    Decidable (SlotsDefined history event) :=
  Outcome.decidableNeError ..

/-- When what arrives for a stream closes it, or leaves it closed, the empty slots of the
queue are behind the stream. -/
def ClosesInFront (history : Machine.History Client Tx) (event : Event) : Prop :=
  ∀ id received ptr, history.state.delivery event = some (id, received) →
    history.state.registry.getStream id = some ptr →
    received.stateAfter (history.state.registry.heap ptr).httpState = .closed →
    history.state.registry.HolesBehind id

private theorem slotsDefined_iff (history : Machine.History Client Tx) (event : Event) :
    SlotsDefined history event ↔ ClosesInFront history event := by
  unfold SlotsDefined ClosesInFront
  generalize history.state.registry = registry
  cases delivered : history.state.delivery event with
  | none => exact ⟨fun _ _ _ _ other => (nomatch other), fun _ => nofun⟩
  | some delivery =>
      obtain ⟨id, received⟩ := delivery
      change registry.invokeForStream id received ≠ _ ↔ _
      unfold StreamRegistry.invokeForStream
      cases found : registry.getStream id with
      | none =>
          refine ⟨fun _ other _ _ same look => ?_, fun _ => nofun⟩
          cases same
          rw [found] at look
          cases look
      | some ptr =>
          have search : resetSlot (Function.update registry.heap ptr
              ((registry.heap ptr).receive received)) id registry.queue ≠
                .error .undefinedBehaviour ↔ registry.HolesBehind id := by
            rw [resetSlot_defined_iff]
            simp only [update_same Stream.httpId
              (Stream.receive_httpId (registry.heap ptr) received)]
            exact Iff.rfl
          have state := (Stream.receive_status (registry.heap ptr) received).1
          simp only
          split
          · rename_i finished
            unfold erase
            rw [Outcome.bind_ok_ne_error, search]
            refine ⟨fun behind _ _ _ same look _ => ?_, fun closes => ?_⟩
            · cases same
              exact behind
            · exact closes id received ptr rfl found (state.symm.trans (of_decide_eq_true finished))
          · rename_i unfinished
            refine ⟨fun _ _ _ _ same look closed => ?_, fun _ => nofun⟩
            cases same
            cases found.symm.trans look
            exact absurd (decide_eq_true (state.trans closed)) unfinished

/-- **Empty slots.** Exactly in the runs in which streams are closed in front of the
empty slots, none is asked for its stream. The rounds of `get_data` skip them. -/
theorem slotsDefined_along_iff (lowerBound : LowerBound) (events : List Event) :
    ((machine lowerBound).Along SlotsDefined start events ↔
      (machine lowerBound).Along ClosesInFront start events) ∧
    ∀ limit round, (scheduler lowerBound limit).step round none = .ok (round, []) := by
  refine ⟨?_, fun _ _ => rfl⟩
  exact Machine.along_iff (fun history event (_ : True) => slotsDefined_iff history event)
    (fun _ _ _ _ _ _ => trivial) trivial events

/-- Two requests are reset before a round: the second search meets the slot that the
first has emptied. -/
theorem slotsDefined_two_resets :
    ¬ (machine .linear).Along SlotsDefined start
      [.connected, .send (sampleRequest .get [] []), .send (sampleRequest .get [] []),
        frameRead 3 0 1 [0, 0, 0, 8], frameRead 3 0 3 [0, 0, 0, 8]] := by
  decide +kernel

end Client

/-! ## Streams that wait -/

namespace Stream

variable {stream : Stream} {received : Received}

private theorem hasTxData_iff (stream : Stream) :
    stream.hasTxData = true ↔ stream.httpState = .halfClosed ∨
      stream.localWindow.needUpdate = true ∨ stream.request.headerList ≠ [] ∨
      stream.request.bodyList ≠ [] := by
  simp only [hasTxData, Bool.or_eq_true, decide_eq_true_eq, or_assoc]

/-- What a stream has to send does not vanish while it receives, unless it is closed or
its window is counted round. -/
theorem receive_hasTxData (pending : stream.hasTxData = true)
    (unfinished : (stream.receive received).isFinished = false)
    (bounded : stream.localWindow.counted + received.rawSize < 2 ^ 31) :
    (stream.receive received).hasTxData = true := by
  have request : (stream.receive received).request = stream.request :=
    congrArg Sending.request (receive_sending stream received)
  have state := (receive_status stream received).1
  rw [hasTxData_iff] at pending ⊢
  rcases pending with half | update | headers | body
  · left
    rw [half] at state
    rw [isFinished, decide_eq_false_iff_not, state] at unfinished
    rw [state]
    cases received with
    | reset err => exact absurd rfl unfinished
    | cleanup ec => exact absurd rfl unfinished
    | _ => simp only [Received.stateAfter, ite_self]
  · right
    left
    rw [DummyWindow.needUpdate_eq, decide_eq_true_eq] at update
    rw [receive_localWindow, DummyWindow.needUpdate_eq, DummyWindow.counted_dec,
      Nat.mod_eq_of_lt (Nat.lt_trans bounded (by decide)), decide_eq_true_eq]
    exact Nat.le_trans update (Nat.le_add_right _ _)
  · exact .inr (.inr (.inl (request ▸ headers)))
  · exact .inr (.inr (.inr (request ▸ body)))

private theorem onTimeout_status (stream : Stream) :
    stream.onTimeout.isScheduled = stream.isScheduled ∧
      stream.onTimeout.hasTxData = stream.hasTxData := by
  unfold onTimeout finished
  split
  · split <;> exact ⟨rfl, rfl⟩
  · exact ⟨rfl, rfl⟩

end Stream

namespace StreamRegistry

/-- What holds of the streams in the map: those that have something to send are marked,
and those that are marked are in the queue. -/
structure Waiting (registry : StreamRegistry) : Prop where
  scheduled : registry.Scheduled
  waits : ∀ id ptr, registry.getStream id = some ptr →
    ((registry.heap ptr).isScheduled = true → ptr ∈ registry.queued) ∧
      (registry.heap ptr).hasTxData = (registry.heap ptr).isScheduled

/-- The same during a round. -/
def RoundWaiting (registry : StreamRegistry) (round : Round) (remaining : List (Option Nat)) :
    Prop :=
  ∀ id ptr, registry.getStream id = some ptr →
    ((round.heap ptr).isScheduled = true → ptr ∈ round.nextQueue ++ remaining.reduceOption) ∧
      (round.heap ptr).hasTxData = (round.heap ptr).isScheduled

/-- A turn of a stream: it waits again exactly if it has more to send. -/
theorem RoundWaiting.served {lowerBound : LowerBound} {limit : Nat} {registry : StreamRegistry}
    {round next : Round} {slot : Option Nat} {remaining : List (Option Nat)}
    {out : List (Nat × OutFrame)} (waiting : registry.RoundWaiting round (slot :: remaining))
    (served : Served lowerBound limit round slot next out) :
    registry.RoundWaiting next remaining := by
  intro id ptr found
  obtain ⟨waits, pending⟩ := waiting id ptr found
  cases served with
  | skipped idle =>
      refine ⟨fun marked => ?_, pending⟩
      have member := waits marked
      cases slot with
      | none => exact member
      | some first =>
          rw [List.reduceOption_cons_of_some, List.mem_append, List.mem_cons] at member
          rw [List.mem_append]
          refine member.imp_right fun later => later.resolve_left ?_
          rintro rfl
          rw [idle ptr rfl, marked] at pending
          cases pending
  | @again first turn ready sent checked =>
      by_cases same : ptr = first
      · subst same
        simp only [Function.update_self]
        refine ⟨fun _ => ?_, ?_⟩
        · exact List.mem_append_left _ (List.mem_append_right _ (List.mem_singleton_self _))
        · exact (Stream.checkTxData_true checked).2.1
      · simp only [Function.update_of_ne same]
        refine ⟨fun marked => ?_, pending⟩
        rw [List.append_assoc]
        exact waits marked
  | @once first turn ready sent checked =>
      by_cases same : ptr = first
      · subst same
        have unmarked := Stream.getTxData_isScheduled sent
        rw [Stream.checkTxData_fst, unmarked, Bool.not_false, Bool.true_and] at checked
        simp only [Function.update_self, unmarked, checked, Bool.false_eq_true, IsEmpty.forall_iff,
          and_self]
      · simp only [Function.update_of_ne same]
        refine ⟨fun marked => ?_, pending⟩
        have member := waits marked
        rw [List.reduceOption_cons_of_some, List.mem_append, List.mem_cons] at member
        rw [List.mem_append]
        exact member.imp_right fun later => later.resolve_left same

end StreamRegistry

namespace Client

open StreamRegistry

variable {lowerBound : LowerBound} {history next : Machine.History Client Tx} {event : Event}

/-- Fewer than `2 ^ 31` bytes are received on a stream between two updates of its
window. -/
def WindowsBounded (history : Machine.History Client Tx) (event : Event) : Prop :=
  ∀ delivery ∈ history.state.delivery event,
    ∀ ptr ∈ history.state.registry.getStream delivery.1,
      (history.state.registry.heap ptr).localWindow.counted + delivery.2.rawSize < 2 ^ 31

instance (history : Machine.History Client Tx) (event : Event) :
    Decidable (WindowsBounded history event) :=
  inferInstanceAs (Decidable (∀ delivery ∈ history.state.delivery event, _))

/-- An event other than sending keeps the streams that wait in the queue. -/
theorem Changed.waiting {client : Client} {registry : StreamRegistry} {emitted : List Tx}
    (changed : Changed client event registry) (waiting : client.registry.Waiting)
    (made : ∀ request, event = .send request → request.Made)
    (bounded : WindowsBounded ⟨client, emitted⟩ event) : registry.Waiting := by
  refine ⟨changed.scheduled waiting.scheduled, ?_⟩
  have waits := waiting.waits
  cases changed with
  | same => exact waits
  | @added request connected =>
      intro id ptr found
      simp only [addStream, queued, List.reduceOption_append, List.mem_append]
      rcases getStream_addStream found with earlier | ⟨rfl, rfl⟩
      · rw [Function.update_of_ne (Nat.ne_of_lt (waiting.scheduled.mapped id ptr earlier).1)]
        exact (waits id ptr earlier).imp_left fun member marked => .inl (member marked)
      · rw [Function.update_self]
        refine ⟨fun _ => .inr (List.mem_singleton_self _), (Stream.hasTxData_iff _).mpr ?_⟩
        exact .inr (.inr (.inl (made request rfl).headerList_ne_nil))
  | @timeout first =>
      intro id ptr found
      obtain ⟨marks, pending⟩ := Stream.onTimeout_status (client.registry.heap first)
      simp only [StreamRegistry.onTimeout]
      rw [update_same Stream.isScheduled marks, update_same Stream.hasTxData pending]
      exact waits id ptr found
  | reset =>
      intro id ptr found
      cases found
  | @erased _ id first received slots delivered found finished emptied =>
      intro other ptr look
      obtain ⟨differs, look⟩ := lookup_filter look
      have own := (waiting.scheduled.mapped id first found).2
      have named := (waiting.scheduled.mapped other ptr look).2
      have apart : ptr ≠ first := by
        rintro rfl
        exact differs (named.symm.trans own)
      simp only [Function.update_of_ne apart]
      refine (waits other ptr look).imp_left fun member marked => ?_
      refine resetSlot_keeps emptied ?_ (member marked)
      rw [Function.update_of_ne apart, named]
      exact differs
  | @received _ id first received delivered found unfinished unchecked =>
      intro other ptr look
      by_cases same : ptr = first
      · subst same
        simp only [Function.update_self]
        obtain ⟨member, pending⟩ := waits other ptr look
        have marks := (Stream.receive_status (client.registry.heap ptr) received).2
          (delivery_ne_schedule delivered)
        rw [Stream.checkTxData_fst, marks] at unchecked
        rw [marks]
        refine ⟨member, ?_⟩
        cases marked : (client.registry.heap ptr).isScheduled with
        | true =>
            rw [marked] at pending
            exact Stream.receive_hasTxData pending unfinished
              (bounded (id, received) delivered ptr found)
        | false =>
            rw [marked, Bool.not_false, Bool.true_and] at unchecked
            exact unchecked
      · simp only [Function.update_of_ne same]
        exact waits other ptr look
  | @enqueued _ id first received delivered found unfinished checked =>
      intro other ptr look
      simp only [queued, List.reduceOption_append, List.mem_append]
      by_cases same : ptr = first
      · subst same
        simp only [Function.update_self]
        exact ⟨fun _ => .inr (List.mem_singleton_self _), (Stream.checkTxData_true checked).2.1⟩
      · simp only [Function.update_of_ne same]
        exact (waits other ptr look).imp_left fun member marked => .inl (member marked)

/-- A round of turns keeps the streams that wait in the queue. -/
theorem waiting_round {registry : StreamRegistry} {encoder : Encoder} {limit : Nat}
    {final : Machine.History Round (Nat × OutFrame)} (waiting : registry.Waiting)
    (ran : (scheduler lowerBound limit).run ⟨⟨registry.heap, encoder, 0, []⟩, []⟩
      registry.queue = .ok final) : (withRound registry final.state).Waiting := by
  obtain ⟨rounds, waits⟩ := @run_all_turns lowerBound registry encoder limit
    (fun round remaining => registry.RoundWaiting round.state remaining) final
    waiting.scheduled (fun _ _ _ _ _ _ holds served => holds.served served) waiting.waits ran
  refine ⟨scheduled_withRound waiting.scheduled rounds, fun id ptr found => ?_⟩
  refine (waits id ptr found).imp_left fun member marked => ?_
  rw [queued_withRound]
  exact member marked

/-- An operation on the streams: an event of the client, or a round of `get_data` with
any limit. -/
inductive Operation
  | event (event : Event)
  | getData (limit : Nat)

/-- The client with the operations on its streams. -/
def operations (lowerBound : LowerBound) : Machine Client Operation Tx Failure where
  step client operation :=
    match operation with
    | .event event => (machine lowerBound).step client event
    | .getData limit => do
        let (registry, encoder, frames, _) ← client.registry.getData lowerBound client.encoder limit
        .ok ({ client with registry, encoder }, streamTx frames)

/-- Fewer than `2 ^ 31` bytes are received on a stream between two updates of its
window. -/
def OperationBounded (history : Machine.History Client Tx) : Operation → Prop
  | .event event => WindowsBounded history event
  | .getData _ => True

instance (history : Machine.History Client Tx) :
    ∀ operation, Decidable (OperationBounded history operation)
  | .event event => inferInstanceAs (Decidable (WindowsBounded history event))
  | .getData _ => isTrue trivial

/-- An operation keeps streams with something to send in the queue. -/
theorem waiting_step {client after : Client} {out emitted : List Tx} {operation : Operation}
    (waiting : client.registry.Waiting)
    (made : ∀ request, operation = .event (.send request) → request.Made)
    (bounded : OperationBounded ⟨client, emitted⟩ operation)
    (stepped : (operations lowerBound).step client operation = .ok (after, out)) :
    after.registry.Waiting := by
  cases operation with
  | event event =>
      rcases step_cases stepped with ⟨rfl, sent⟩ | ⟨_, _, changed⟩
      · obtain ⟨_, _, ⟨same, _⟩ | ⟨_, final, ran, same, _⟩⟩ := getTxData_spec sent
        · rw [same]
          exact waiting
        · rw [same]
          exact waiting_round waiting ran
      · exact changed.waiting waiting (fun request same => made request (congrArg _ same)) bounded
  | getData limit =>
      obtain ⟨⟨registry, encoder, frames, used⟩, got, same⟩ := Outcome.bind_eq_ok.mp stepped
      cases same
      unfold StreamRegistry.getData at got
      split at got
      · cases got
        exact waiting
      · obtain ⟨final, ran, rest⟩ := Outcome.bind_eq_ok.mp got
        cases rest
        exact waiting_round waiting ran

/-- **No stream is lost or queued twice.** A stream in the map that has not finished is
in the queue once if it is marked and not at all otherwise, and it is in the queue
whenever it has something to send. -/
theorem streams_queued (lowerBound : LowerBound) (run : List Operation)
    (last : Machine.History Client Tx)
    (made : ∀ request, Operation.event (.send request) ∈ run → request.Made)
    (bounded : (operations lowerBound).Along OperationBounded start run)
    (ran : (operations lowerBound).run start run = .ok last) :
    ∀ id ptr, last.state.registry.getStream id = some ptr →
      (last.state.registry.heap ptr).isFinished = false →
      last.state.registry.queued.count ptr =
          (if (last.state.registry.heap ptr).isScheduled then 1 else 0) ∧
        ((last.state.registry.heap ptr).hasTxData = true → ptr ∈ last.state.registry.queued) := by
  have fresh : start.state.registry.Waiting := ⟨Scheduled.create, fun _ _ found => nomatch found⟩
  have built : (operations lowerBound).Along
      (fun _ operation => ∀ request, operation = .event (.send request) → request.Made) start run :=
    @Machine.along_of_mem _ _ _ _ _
      (fun operation => ∀ request, operation = .event (.send request) → request.Made)
      run (fun _ member request same => made request (same ▸ member)) start
  obtain ⟨scheduled, waits⟩ : last.state.registry.Waiting := by
    refine @Machine.run_invariant _ _ _ _ _ _ (fun history => history.state.registry.Waiting)
      ?_ _ _ _ fresh (built.and bounded) ran
    rintro history operation next waiting ⟨made, bounded⟩ taken
    obtain ⟨state, out, stepped, rfl⟩ := Machine.advance_eq_ok taken
    exact waiting_step waiting made bounded stepped
  intro id ptr found _
  obtain ⟨member, pending⟩ := waits id ptr found
  refine ⟨?_, fun ready => member (pending ▸ ready)⟩
  cases marked : (last.state.registry.heap ptr).isScheduled with
  | true => exact List.count_eq_one_of_mem scheduled.once (member marked)
  | false =>
      refine List.count_eq_zero_of_not_mem fun present => ?_
      exact Bool.false_ne_true (marked.symm.trans (scheduled.marked ptr present).2)

/-- A client with an upload of 100 bytes, which gets a turn with a limit of 60 bytes. -/
def upload : List Operation :=
  [.event .connected, .event (.send (sampleRequest .post [] [List.replicate 100 7])), .getData 60]

/-- The upload has not been finished, and waits for its next turn. -/
theorem streams_queued_upload :
    ∃ last, (operations .linear).run start upload = .ok last ∧
      last.state.registry.getStream 0x1000000 = some 0 ∧
      last.state.registry.queued.count 0 = 1 := by
  have passes : ((operations .linear).run start upload).toOption.any (fun last => decide (
      (operations .linear).Along OperationBounded start upload ∧
        last.state.registry.getStream 0x1000000 = some 0 ∧
        (last.state.registry.heap 0).isFinished = false ∧
        (last.state.registry.heap 0).isScheduled = true)) = true := by
    decide +kernel
  obtain ⟨last, ran, checks⟩ := Outcome.exists_ok_of_any passes
  obtain ⟨bounded, found, unfinished, marked⟩ := of_decide_eq_true checks
  have made : ∀ request, Operation.event (.send request) ∈ upload → request.Made := by
    intro request member
    obtain rfl : request = sampleRequest .post [] [List.replicate 100 7] := by
      simpa [upload] using member
    exact sampleRequest_made _ _ _
  have queued := (streams_queued .linear upload last made bounded ran _ _ found unfinished).1
  rw [marked] at queued
  exact ⟨last, ran, found, queued⟩

end Client

end H2pp.Http2

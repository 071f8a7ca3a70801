import H2pp.Http2.Shutdown
import H2pp.Http2.StreamIds

/-! # Response handlers

A handler waits for the response to one request. It is called with what its own stream was
given, by the first thing that ends the wait: the end of the response, a reset, the timer or
the end of the connection. Nothing that happens to another stream makes a difference, and
when the connection has ended no handler is left waiting.
-/

namespace H2pp.Http2

open Utils Hpack

namespace Stream

/-- The code that a handler is called with because of something received. -/
def Received.ending : Received → Option ErrorCode
  | .data _ frame => if Http2.endsStream frame.flags then some .success else none
  | .headers _ flags _ => if Http2.endsStream flags then some .success else none
  | .continuation _ flags _ => if Http2.endsStream flags then some .success else none
  | .reset err => some (.http2 err)
  | .cleanup ec => some ec
  | .timeout => some (.asio .timedOut)
  | .windowUpdate _ => none
  | .schedule => none

/-- What something received adds to the response. -/
def Received.collect (response : Response) : Received → Response
  | .data _ frame => if frame.payloadSize ≠ 0 then response.insertBody frame else response
  | .headers header _ _ => response.insertHeaders header
  | .continuation header _ _ => response.insertHeaders header
  | _ => response

/-- What a handler is called with, by what its stream is given: the first thing that ends
the wait, and the response that was collected up to it. -/
def outcome (response : Response) : List Received → Option (ErrorCode × Response)
  | [] => none
  | received :: later =>
      match received.ending with
      | some ec => some (ec, received.collect response)
      | none => outcome (received.collect response) later

/-- A mailbox whose handler is waiting, after something received. -/
def Mailbox.after (mailbox : Mailbox) (received : Received) : Mailbox :=
  match received.ending with
  | some ec => ⟨(received.collect mailbox.response).movedFrom, false,
      mailbox.delivered ++ [(ec, received.collect mailbox.response)]⟩
  | none => { mailbox with response := received.collect mailbox.response }

private theorem finished_waiting {stream : Stream} (waits : stream.responseHandler = true)
    (ec : ErrorCode) : (stream.finished ec).mailbox =
      ⟨stream.response.movedFrom, false, stream.delivered ++ [(ec, stream.response)]⟩ := by
  rw [finished, if_pos waits]
  rfl

/-- What something received does while the handler is waiting. -/
theorem receive_waiting {stream : Stream} (waits : stream.responseHandler = true)
    {received : Received} (timer : received = .timeout → stream.timer = true) :
    (stream.receive received).mailbox = stream.mailbox.after received := by
  have response (answered : received.isResponse = true) (change : Response → Response)
      (flags : UInt8)
      (inserts : stream.mailbox.receive received = stream.mailbox.insert change flags)
      (ending : received.ending = if endsStream flags then some .success else none)
      (collects : received.collect stream.response = change stream.response) :
      (stream.receive received).mailbox = stream.mailbox.after received := by
    rw [receive_mailbox stream answered, inserts, Mailbox.insert, Mailbox.after, ending, mailbox]
    simp only [collects]
    cases endsStream flags with
    | true => simp only [↓reduceIte, Mailbox.finished, waits]
    | false => simp only [Bool.false_eq_true, ↓reduceIte]
  cases received with
  | data buff frame => exact response rfl _ frame.flags rfl rfl rfl
  | headers header flags rawSize => exact response rfl (·.insertHeaders header) flags rfl rfl rfl
  | continuation header flags rawSize =>
      exact response rfl (·.insertHeaders header) flags rfl rfl rfl
  | reset err =>
      exact @finished_waiting { stream with httpState := .closed } waits _
  | cleanup ec =>
      exact @finished_waiting { stream with httpState := .closed, timer := false } waits _
  | timeout =>
      rw [receive, onTimeout, if_pos (timer rfl)]
      exact @finished_waiting { stream with timer := false } waits _
  | windowUpdate increment => rfl
  | schedule =>
      simp only [receive, checkTxData]
      split <;> rfl

/-- **The handler of a stream.** Over a run, a handler that was waiting is called as what
the stream is given says, or still waits. -/
theorem run_outcome {lowerBound : LowerBound} {events : List Event}
    {history last : Machine.History Stream OutFrame}
    (waits : history.state.responseHandler = true) (uncalled : history.state.delivered = [])
    (timers : (machine lowerBound).Along TimerWaits history events)
    (ran : (machine lowerBound).run history events = .ok last) :
    last.state.delivered = (outcome history.state.response (given events)).toList ∧
      last.state.responseHandler = (outcome history.state.response (given events)).isNone := by
  -- along the events: what is not given leaves the mailbox alone
  induction events generalizing history with
  | nil =>
      cases ran
      exact ⟨uncalled, waits⟩
  | cons event events ih =>
      obtain ⟨met, later⟩ := timers
      obtain ⟨next, taken, rest⟩ := Outcome.bind_eq_ok.mp ran
      rw [taken] at later
      obtain ⟨state, out, stepped, rfl⟩ := Machine.advance_eq_ok taken
      have same (quiet : event.given = none) (silent : event.isQuiet = true) :
          last.state.delivered =
              (outcome history.state.response (given (event :: events))).toList ∧
            last.state.responseHandler =
              (outcome history.state.response (given (event :: events))).isNone := by
        have mailbox := step_mailbox stepped silent
        have response : state.response = history.state.response :=
          congrArg Mailbox.response mailbox
        rw [given, List.filterMap_cons_none quiet, ← given, ← response]
        exact ih ((congrArg Mailbox.waiting mailbox).trans waits)
          ((congrArg Mailbox.delivered mailbox).trans uncalled) later rest
      cases event with
      | send encoder limit => exact same rfl rfl
      | receive received =>
          by_cases marks : received = .schedule
          · subst marks
            exact same rfl rfl
          · cases stepped
            have mailbox := receive_waiting waits fun timeout => met (congrArg _ timeout)
            rw [← List.singleton_append, given_append, given_receive marks, List.singleton_append,
              outcome]
            rw [Mailbox.after] at mailbox
            cases ends : received.ending with
            | some ec =>
                rw [ends] at mailbox
                have delivered := congrArg Mailbox.delivered mailbox
                simp only [Stream.mailbox, uncalled, List.nil_append] at delivered
                have called : ((history.state.receive received)).Called
                    [(ec, received.collect history.state.response)] :=
                  ⟨congrArg Mailbox.waiting mailbox, delivered⟩
                exact (run_called called rest).symm
            | none =>
                rw [ends] at mailbox
                have collected := congrArg Mailbox.response mailbox
                simp only [Stream.mailbox] at collected
                simp only [← collected]
                exact ih ((congrArg Mailbox.waiting mailbox).trans waits)
                  ((congrArg Mailbox.delivered mailbox).trans uncalled) later rest

end Stream

namespace Client

open StreamRegistry

variable {lowerBound : LowerBound} {client next : Client} {event : Event}

/-- The handlers of all streams, by what was written down. -/
theorem handlers_outcome {history : Machine.History (Client × Journal) Tx}
    (multiplexed : Multiplexed lowerBound history) (enumerated : Enumerated history) {ptr : Nat}
    (inside : ptr < history.state.1.registry.size) :
    (history.state.1.registry.heap ptr).delivered =
        (Stream.outcome .create (history.state.2.given ptr)).toList ∧
      (history.state.1.registry.heap ptr).responseHandler =
        (Stream.outcome .create (history.state.2.given ptr)).isNone := by
  obtain ⟨created, found⟩ : ∃ created, history.state.2.opened[ptr]? = some created :=
    ⟨_, List.getElem?_eq_getElem (multiplexed.opened ▸ inside)⟩
  obtain ⟨remoteSize, localSize, request, rfl⟩ := enumerated.created ptr created found
  obtain ⟨seen, takes, given, timers⟩ := multiplexed.alone ptr _ found
  rw [← given]
  exact Stream.run_outcome rfl rfl (timers []) (takes [])

/-- **Handlers.** In every run, the handler of each request was called at most once, and
exactly as what its own stream was given says: with the first code that ends the wait and
the fields and data collected until then. It waits if nothing of this kind has come. -/
theorem handlers_called (lowerBound : LowerBound) (client : Client) (events : List Event)
    (last : Machine.History Client Tx) (empty : client.registry = .create)
    (first : client.clientIdOrder = 1)
    (ran : (machine lowerBound).run ⟨client, []⟩ events = .ok last) :
    ∃ journal, (journaled lowerBound).run client.unwritten events =
        .ok ⟨(last.state, journal), last.emitted⟩ ∧
      ∀ ptr < last.state.registry.size,
        (last.state.registry.heap ptr).delivered =
            (Stream.outcome .create (journal.given ptr)).toList ∧
          (last.state.registry.heap ptr).responseHandler =
            (Stream.outcome .create (journal.given ptr)).isNone := by
  obtain ⟨journal, observed, multiplexed, enumerated⟩ := enumerated_of_run empty first ran
  exact ⟨journal, observed, fun ptr inside => handlers_outcome multiplexed enumerated inside⟩

/-- The response of the first of two requests has come, and the second was reset. -/
theorem handlers_called_interleaved :
    ∃ last journal, (machine .linear).run start interleaved = .ok last ∧
      (journaled .linear).run create.unwritten interleaved =
        .ok ⟨(last.state, journal), last.emitted⟩ ∧
      last.state.registry.size = 2 ∧
      ∀ ptr < last.state.registry.size,
        (last.state.registry.heap ptr).delivered =
            (Stream.outcome .create (journal.given ptr)).toList ∧
          (last.state.registry.heap ptr).responseHandler =
            (Stream.outcome .create (journal.given ptr)).isNone := by
  have passes : ((machine .linear).run start interleaved).toOption.any
      (fun last => decide (last.state.registry.size = 2)) = true := by
    decide +kernel
  obtain ⟨last, ran, checks⟩ := Outcome.exists_ok_of_any passes
  obtain ⟨journal, observed, called⟩ := handlers_called .linear create interleaved last rfl rfl ran
  exact ⟨last, journal, ran, observed, of_decide_eq_true checks, called⟩

/-! ## The end of the connection -/

/-- While the ids last, that of a new stream is free. -/
theorem nextStreamId_free {history : Machine.History (Client × Journal) Tx}
    (multiplexed : Multiplexed lowerBound history) (enumerated : Enumerated history)
    (few : history.state.1.registry.size < 2 ^ 31) :
    history.state.1.registry.getStream history.state.1.nextStreamId = none := by
  cases found : history.state.1.registry.getStream history.state.1.nextStreamId with
  | none => rfl
  | some ptr =>
      obtain ⟨inside, named⟩ := multiplexed.scheduled.mapped _ _ found
      rw [(enumerated.identified multiplexed inside).1, nextStreamId_eq enumerated.next] at named
      exact absurd (idAt_injective (Nat.lt_trans inside few) few named) (Nat.ne_of_lt inside)

/-- What holds of waiting handlers while the ids last. -/
def Reachable (history : Machine.History (Client × Journal) Tx) : Prop :=
  history.state.1.registry.size ≤ 2 ^ 31 → history.state.1.registry.Answerable

/-- A stream whose handler waits stays in the map. -/
theorem reachable_advance {history after : Machine.History (Client × Journal) Tx}
    (multiplexed : Multiplexed lowerBound history) (enumerated : Enumerated history)
    (reachable : Reachable history)
    (taken : (journaled lowerBound).advance history event = .ok after) : Reachable after := by
  obtain ⟨state, out, stepped, rfl⟩ := Machine.observed_advance taken
  intro few
  simp only at few ⊢
  rcases step_react stepped with ⟨rfl, sent⟩ | ⟨sends, rfl, reacted⟩
  · rw [(getTxData_evolves multiplexed.scheduled sent).1] at few
    exact getTxData_answerable sent (reachable few)
  · have changed := react_changed sends reacted
    by_cases opens : ∃ request, event = .send request
    · obtain ⟨request, rfl⟩ := opens
      have registry := react_registry sends reacted
      cases connected : history.state.1.isConnected with
      | false =>
          simp only [registryAfter, connected, Bool.false_eq_true, ↓reduceIte, Except.ok.injEq]
            at registry
          rw [← registry] at few ⊢
          exact reachable few
      | true =>
          simp only [registryAfter, connected, ↓reduceIte, Except.ok.injEq] at registry
          rw [← registry] at few
          exact changed.answerable (reachable (Nat.le_of_succ_le few))
            fun _ _ => nextStreamId_free multiplexed enumerated few
    · have closed := fun request same => opens ⟨request, same⟩
      rw [react_size sends closed reacted] at few
      exact changed.answerable (reachable few) fun request same => absurd same (closed request)

/-- **Clean-up.** When the connection has ended, the handler of every request has been
called exactly once, whatever happened before and whatever state the request was in. -/
theorem handlers_settled_by_cleanup (lowerBound : LowerBound) (client : Client)
    (events : List Event) (ec : ErrorCode) (last : Machine.History Client Tx)
    (empty : client.registry = .create) (first : client.clientIdOrder = 1)
    (ran : (machine lowerBound).run ⟨client, []⟩ (events ++ [.cleanup ec]) = .ok last)
    (few : last.state.registry.size ≤ 2 ^ 31) :
    ∀ ptr < last.state.registry.size,
      ∃ call, (last.state.registry.heap ptr).delivered = [call] := by
  obtain ⟨journal, _, multiplexed, enumerated⟩ := enumerated_of_run empty first ran
  obtain ⟨middle, before, after⟩ := Machine.run_append_ok ran
  obtain ⟨kept, observed, _⟩ := enumerated_of_run empty first before
  obtain ⟨_, _, reachable⟩ := @Machine.run_kept _ _ _ _ (journaled lowerBound)
    (fun history => Multiplexed lowerBound history ∧ Enumerated history ∧ Reachable history)
    (fun _ _ _ kept taken => ⟨kept.1.advance taken,
      kept.2.1.advance kept.1.opened kept.1.scheduled taken,
      reachable_advance kept.1 kept.2.1 kept.2.2 taken⟩)
    _ _ _ ⟨.unwritten empty, .unwritten empty first, fun _ => empty ▸ .create⟩ observed
  have answered : last.state.registry.Answered := by
    obtain ⟨next, taken, rest⟩ := Outcome.bind_eq_ok.mp after
    obtain ⟨_, _, stepped, rfl⟩ := Machine.advance_eq_ok taken
    cases stepped
    cases rest
    exact ((reachable few).reset ec).2
  intro ptr inside
  obtain ⟨delivered, waiting⟩ := handlers_outcome multiplexed enumerated inside
  simp only at delivered waiting
  rw [answered ptr inside] at waiting
  cases found : Stream.outcome .create (journal.given ptr) with
  | none =>
      rw [found] at waiting
      cases waiting
  | some call =>
      rw [found] at delivered
      exact ⟨call, delivered⟩

/-- The connection ends while two requests wait. -/
theorem handlers_settled_by_cleanup_waiting :
    ∃ last, (machine .linear).run start
        ([.connected, .send (sampleRequest .get [] []), .getTxData,
          .send (sampleRequest .get [] [])] ++ [.cleanup (.asio .notConnected)]) = .ok last ∧
      last.state.registry.size = 2 ∧
      ∀ ptr < last.state.registry.size,
        ∃ call, (last.state.registry.heap ptr).delivered = [call] := by
  have passes : ((machine .linear).run start
      ([.connected, .send (sampleRequest .get [] []), .getTxData,
        .send (sampleRequest .get [] [])] ++ [.cleanup (.asio .notConnected)])).toOption.any
      (fun last => decide (last.state.registry.size = 2)) = true := by
    decide +kernel
  obtain ⟨last, ran, checks⟩ := Outcome.exists_ok_of_any passes
  have size := of_decide_eq_true checks
  exact ⟨last, ran, size, handlers_settled_by_cleanup .linear create _ _ last rfl rfl ran
    (by rw [size]; decide)⟩

end Client

end H2pp.Http2

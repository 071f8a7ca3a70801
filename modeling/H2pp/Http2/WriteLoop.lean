import H2pp.Http2.ClientSession
import H2pp.Http2.EmptyRounds

/-! # The write loop

`client_session::init_write` and `on_data_write`. Whoever finds `tx_running_flag` clear
sets it and posts a lambda, which asks the client for data and starts a write; the
completion of the write clears the flag and begins again. When there is nothing to write,
the lambda clears the flag, but not in the step in which it asked. A stream that is added
between the two finds the flag set, and nobody asks for it again.
-/

namespace H2pp.Http2

open Utils Hpack

/-! ## The two threads -/

/-- Where the io thread is. Between two handlers it is `idle`. -/
inductive IoPhase
  | idle
  /-- in the lambda, after an empty `get_tx_data` and before the flag is cleared -/
  | clearing
  /-- in `on_data_write`, before `test_and_set` of `init_write` -/
  | restarting
  /-- in `init_write`, before `post` -/
  | posting
  deriving DecidableEq, Repr

/-- `client_session`, as far as it writes, with its threads. `announcing` user threads have
added a stream and are before `test_and_set` of `init_write`, and `posting` ones are
before `post`. `posted` lambdas wait for the io thread, and `writes` are outstanding. -/
structure WriteLoop where
  client : Client
  txRunning : Bool
  announcing : Nat
  posting : Nat
  io : IoPhase
  posted : Nat
  writes : Nat

namespace WriteLoop

/-- An atomic step of a user thread or of the io thread. -/
inductive Action
  /-- `initiate_send` up to the call of `init_write` -/
  | send (request : Request)
  | userTestAndSet
  | userPost
  /-- the posted lambda up to the write, or up to an empty result -/
  | lambda
  | clear
  /-- `on_data_write` without an error, up to the call of `init_write` -/
  | complete
  | ioTestAndSet
  | ioPost

/-- Why a step is not taken: no thread is there, or the client throws. -/
inductive Stop
  | disabled
  | thrown (failure : Failure)
  deriving DecidableEq, Repr

/-- `get_tx_data` in the lambda. -/
def ask (lowerBound : LowerBound) (state : WriteLoop) : Except Stop (WriteLoop × List Tx) :=
  match state.client.getTxData lowerBound with
  | .error failure => .error (.thrown failure)
  | .ok (client, []) =>
      .ok ({ state with client, posted := state.posted - 1, io := .clearing }, [])
  | .ok (client, out) =>
      .ok ({ state with client, posted := state.posted - 1, writes := state.writes + 1 }, out)

/-- The step of a thread, with what is given to `async_write`. -/
def step (lowerBound : LowerBound) (state : WriteLoop) :
    Action → Except Stop (WriteLoop × List Tx)
  | .send request =>
      match state.client.initiateSend request with
      | .error failure => .error (.thrown failure)
      | .ok client => .ok ({ state with client, announcing := state.announcing + 1 }, [])
  | .userTestAndSet =>
      if state.announcing = 0 then .error .disabled
      else if state.txRunning then
        .ok ({ state with announcing := state.announcing - 1 }, [])
      else
        .ok ({ state with
          txRunning := true
          announcing := state.announcing - 1
          posting := state.posting + 1 }, [])
  | .userPost =>
      if state.posting = 0 then .error .disabled
      else .ok ({ state with posting := state.posting - 1, posted := state.posted + 1 }, [])
  | .lambda =>
      if state.io ≠ .idle ∨ state.posted = 0 then .error .disabled else state.ask lowerBound
  | .clear =>
      if state.io ≠ .clearing then .error .disabled
      else .ok ({ state with txRunning := false, io := .idle }, [])
  | .complete =>
      if state.io ≠ .idle ∨ state.writes = 0 then .error .disabled
      else
        .ok ({ state with txRunning := false, writes := state.writes - 1, io := .restarting }, [])
  | .ioTestAndSet =>
      if state.io ≠ .restarting then .error .disabled
      else if state.txRunning then .ok ({ state with io := .idle }, [])
      else .ok ({ state with txRunning := true, io := .posting }, [])
  | .ioPost =>
      if state.io ≠ .posting then .error .disabled
      else .ok ({ state with io := .idle, posted := state.posted + 1 }, [])

/-- The threads with what they write. -/
def machine (lowerBound : LowerBound) : Machine WriteLoop Action Tx Stop where
  step := step lowerBound

/-- The io thread has connected and calls `init_write` for the first time. -/
def start (client : Client) : WriteLoop := ⟨client, false, 0, 0, .restarting, 0, 0⟩

/-- There is something to send, and nobody will ask for it: the flag is clear, no lambda is
posted or running, no write is outstanding, and no thread is about to call `init_write`. -/
structure Lost (lowerBound : LowerBound) (state : WriteLoop) : Prop where
  sendable : state.client.Sendable lowerBound
  clear : state.txRunning = false
  unposted : state.posted = 0
  unlocked : state.io ≠ .clearing
  written : state.writes = 0
  announced : state.announcing = 0
  started : state.io ≠ .restarting

instance (lowerBound : LowerBound) (state : WriteLoop) : Decidable (state.Lost lowerBound) :=
  decidable_of_iff (state.client.Sendable lowerBound ∧ state.txRunning = false ∧
      state.posted = 0 ∧ state.io ≠ .clearing ∧ state.writes = 0 ∧ state.announcing = 0 ∧
      state.io ≠ .restarting)
    ⟨fun ⟨sendable, clear, unposted, unlocked, written, announced, started⟩ =>
        ⟨sendable, clear, unposted, unlocked, written, announced, started⟩,
      fun lost => ⟨lost.sendable, lost.clear, lost.unposted, lost.unlocked, lost.written,
        lost.announced, lost.started⟩⟩

variable {lowerBound : LowerBound} {state next : WriteLoop} {action : Action} {out : List Tx}

/-- What the steps do. -/
inductive Stepped (lowerBound : LowerBound) (state : WriteLoop) :
    Action → WriteLoop → List Tx → Prop
  | send {request : Request} {client : Client}
      (added : state.client.initiateSend request = .ok client) :
      Stepped lowerBound state (.send request)
        { state with client, announcing := state.announcing + 1 } []
  | userFinds (announced : state.announcing ≠ 0) (running : state.txRunning = true) :
      Stepped lowerBound state .userTestAndSet
        { state with announcing := state.announcing - 1 } []
  | userSets (announced : state.announcing ≠ 0) (free : state.txRunning = false) :
      Stepped lowerBound state .userTestAndSet
        { state with
          txRunning := true
          announcing := state.announcing - 1
          posting := state.posting + 1 } []
  | userPosts (waits : state.posting ≠ 0) :
      Stepped lowerBound state .userPost
        { state with posting := state.posting - 1, posted := state.posted + 1 } []
  | asksInVain {client : Client} (idle : state.io = .idle) (waits : state.posted ≠ 0)
      (asked : state.client.getTxData lowerBound = .ok (client, [])) :
      Stepped lowerBound state .lambda
        { state with client, posted := state.posted - 1, io := .clearing } []
  | writes {client : Client} {out : List Tx} (idle : state.io = .idle) (waits : state.posted ≠ 0)
      (asked : state.client.getTxData lowerBound = .ok (client, out)) (some : out ≠ []) :
      Stepped lowerBound state .lambda
        { state with client, posted := state.posted - 1, writes := state.writes + 1 } out
  | clears (reached : state.io = .clearing) :
      Stepped lowerBound state .clear { state with txRunning := false, io := .idle } []
  | completes (idle : state.io = .idle) (outstanding : state.writes ≠ 0) :
      Stepped lowerBound state .complete
        { state with txRunning := false, writes := state.writes - 1, io := .restarting } []
  | ioFinds (reached : state.io = .restarting) (running : state.txRunning = true) :
      Stepped lowerBound state .ioTestAndSet { state with io := .idle } []
  | ioSets (reached : state.io = .restarting) (free : state.txRunning = false) :
      Stepped lowerBound state .ioTestAndSet { state with txRunning := true, io := .posting } []
  | ioPosts (reached : state.io = .posting) :
      Stepped lowerBound state .ioPost { state with io := .idle, posted := state.posted + 1 } []

/-- A step that is taken is one of a thread that is there. -/
theorem enabled_of_ok {disabled : Prop} [Decidable disabled]
    {rest : Except Stop (WriteLoop × List Tx)}
    (stepped : (if disabled then .error .disabled else rest) = .ok (next, out)) :
    ¬ disabled ∧ rest = .ok (next, out) := by
  split at stepped
  · cases stepped
  · rename_i enabled
    exact ⟨enabled, stepped⟩

private theorem step_spec (stepped : state.step lowerBound action = .ok (next, out)) :
    Stepped lowerBound state action next out := by
  cases action with
  | send request =>
      simp only [step] at stepped
      split at stepped
      · cases stepped
      · rename_i client added
        cases stepped
        exact .send added
  | userTestAndSet =>
      obtain ⟨announced, rest⟩ := enabled_of_ok stepped
      split at rest
      · rename_i running
        cases rest
        exact .userFinds announced running
      · rename_i free
        cases rest
        exact .userSets announced (Bool.eq_false_of_not_eq_true free)
  | userPost =>
      obtain ⟨waits, rest⟩ := enabled_of_ok stepped
      cases rest
      exact .userPosts waits
  | lambda =>
      obtain ⟨ready, rest⟩ := enabled_of_ok stepped
      rw [not_or, not_not] at ready
      unfold ask at rest
      split at rest
      · cases rest
      · rename_i client asked
        cases rest
        exact .asksInVain ready.1 ready.2 asked
      · rename_i client tx nonempty asked
        cases rest
        exact .writes ready.1 ready.2 asked nonempty
  | clear =>
      obtain ⟨reached, rest⟩ := enabled_of_ok stepped
      cases rest
      exact .clears (not_not.mp reached)
  | complete =>
      obtain ⟨ready, rest⟩ := enabled_of_ok stepped
      rw [not_or, not_not] at ready
      cases rest
      exact .completes ready.1 ready.2
  | ioTestAndSet =>
      obtain ⟨reached, rest⟩ := enabled_of_ok stepped
      split at rest
      · rename_i running
        cases rest
        exact .ioFinds (not_not.mp reached) running
      · rename_i free
        cases rest
        exact .ioSets (not_not.mp reached) (Bool.eq_false_of_not_eq_true free)
  | ioPost =>
      obtain ⟨reached, rest⟩ := enabled_of_ok stepped
      cases rest
      exact .ioPosts (not_not.mp reached)

/-! ## The flag -/

/-- Who has set the flag and will clear it: a thread before its `post`, a lambda that is
posted or running, or an outstanding write. -/
def holders (state : WriteLoop) : Nat :=
  state.posting + state.posted + state.writes +
    match state.io with
    | .clearing => 1
    | .posting => 1
    | _ => 0

/-- The flag is set exactly while it has a holder, and it never has two. -/
def Exclusive (state : WriteLoop) : Prop := state.holders = if state.txRunning then 1 else 0

private theorem Exclusive.step (exclusive : state.Exclusive)
    (stepped : Stepped lowerBound state action next out) : next.Exclusive := by
  unfold Exclusive holders at exclusive ⊢
  cases stepped with
  | send => exact exclusive
  | userFinds => exact exclusive
  | userSets announced free =>
      rw [free] at exclusive
      simp only [Bool.false_eq_true, ↓reduceIte] at exclusive ⊢
      omega
  | userPosts waits =>
      simp only at exclusive ⊢
      omega
  | asksInVain idle waits =>
      rw [idle] at exclusive
      simp only at exclusive ⊢
      omega
  | writes idle waits =>
      simp only [idle] at exclusive ⊢
      omega
  | clears reached =>
      rw [reached] at exclusive
      simp only [Bool.false_eq_true, ↓reduceIte] at exclusive ⊢
      split at exclusive <;> omega
  | completes idle outstanding =>
      rw [idle] at exclusive
      simp only [Bool.false_eq_true, ↓reduceIte] at exclusive ⊢
      split at exclusive <;> omega
  | ioFinds reached =>
      rw [reached] at exclusive
      exact exclusive
  | ioSets reached free =>
      rw [reached, free] at exclusive
      simp only [Bool.false_eq_true, ↓reduceIte] at exclusive ⊢
      omega
  | ioPosts reached =>
      rw [reached] at exclusive
      simp only at exclusive ⊢
      omega

/-- **One writer.** In every interleaving the flag is set exactly while someone holds it. So
there is never more than one write outstanding, and no lambda besides it. -/
theorem exclusive_of_run {client : Client} {actions : List Action}
    {last : Machine.History WriteLoop Tx}
    (ran : (machine lowerBound).run ⟨start client, []⟩ actions = .ok last) :
    last.state.Exclusive := by
  refine @Machine.run_invariant _ _ _ _ _ (fun _ _ => True)
    (fun history => history.state.Exclusive) ?_ _ _ actions rfl
    (Machine.along_of_mem (fun _ _ => trivial) _) ran
  intro history action next exclusive _ taken
  obtain ⟨state, out, stepped, rfl⟩ := Machine.advance_eq_ok taken
  exact exclusive.step (step_spec stepped)

/-! ## Wake-ups -/

/-- No user thread executes its `test_and_set` while the lambda is about to clear the flag
and does not know of what there is to send. -/
def InTime (lowerBound : LowerBound) (history : Machine.History WriteLoop Tx) : Action → Prop
  | .userTestAndSet =>
      history.state.io = .clearing → ¬ history.state.client.Sendable lowerBound
  | _ => True

instance (lowerBound : LowerBound) (history : Machine.History WriteLoop Tx) (action : Action) :
    Decidable (InTime lowerBound history action) :=
  match action with
  | .userTestAndSet => inferInstanceAs (Decidable (_ → _))
  | .send _ | .userPost | .lambda | .clear | .complete | .ioTestAndSet | .ioPost => isTrue trivial

/-- Without a thread that will ask, there is nothing to send; and the lambda that is about
to clear the flag has not missed anything, unless a thread will ask. -/
structure Awake (lowerBound : LowerBound) (state : WriteLoop) : Prop where
  cleared : state.txRunning = false → state.io ≠ .restarting → state.announcing = 0 →
    ¬ state.client.Sendable lowerBound
  clearing : state.io = .clearing → state.announcing = 0 → ¬ state.client.Sendable lowerBound

private theorem Awake.step {emitted : List Tx} (awake : state.Awake lowerBound)
    (inTime : InTime lowerBound ⟨state, emitted⟩ action)
    (stepped : Stepped lowerBound state action next out) : next.Awake lowerBound := by
  cases stepped with
  | send => exact ⟨nofun, nofun⟩
  | userFinds announced running =>
      refine ⟨fun free => ?_, fun clearing _ => inTime clearing⟩
      exact absurd (running.symm.trans free) Bool.noConfusion
  | userSets announced free => exact ⟨nofun, fun clearing _ => inTime clearing⟩
  | userPosts waits => exact ⟨awake.cleared, awake.clearing⟩
  | asksInVain idle waits asked =>
      have settled := Client.not_sendable_of_unsent asked
      exact ⟨fun _ _ _ => settled, fun _ _ => settled⟩
  | writes idle waits asked nonempty =>
      refine ⟨fun free started announced => ?_, fun clearing => ?_⟩
      · exact absurd ⟨_, _, asked, nonempty⟩ (awake.cleared free started announced)
      · rw [idle] at clearing
        cases clearing
  | clears reached => exact ⟨fun _ _ => awake.clearing reached, nofun⟩
  | completes idle outstanding => exact ⟨fun _ started => absurd rfl started, nofun⟩
  | ioFinds reached running =>
      refine ⟨fun free => ?_, nofun⟩
      rw [running] at free
      cases free
  | ioSets reached free => exact ⟨nofun, nofun⟩
  | ioPosts reached =>
      refine ⟨fun free _ => awake.cleared free ?_, nofun⟩
      rw [reached]
      nofun

/-- **Wake-ups.** In every interleaving in which no user thread executes its
`test_and_set` between an empty `get_tx_data` that does not know of its stream and the
clearing of the flag, no state is reached in which there is something to send and nobody
will ask for it. -/
theorem wakeup_not_lost (lowerBound : LowerBound) (client : Client) (actions : List Action)
    (last : Machine.History WriteLoop Tx)
    (inTime : (machine lowerBound).Along (InTime lowerBound) ⟨start client, []⟩ actions)
    (ran : (machine lowerBound).run ⟨start client, []⟩ actions = .ok last) :
    ¬ last.state.Lost lowerBound := by
  have fresh : (start client).Awake lowerBound := ⟨fun _ started => absurd rfl started, nofun⟩
  have awake : last.state.Awake lowerBound := by
    refine @Machine.run_invariant _ _ _ _ _ _ (fun history => history.state.Awake lowerBound)
      ?_ _ _ actions fresh inTime ran
    intro history action next awake inTime taken
    obtain ⟨state, out, stepped, rfl⟩ := Machine.advance_eq_ok taken
    exact awake.step inTime (step_spec stepped)
  intro lost
  exact awake.cleared lost.clear lost.started lost.announced lost.sendable

/-- The condition cannot be weakened: when the only thread that has added something comes too
late, it is lost as soon as the lambda goes on. -/
theorem lost_of_late {client : Client} {actions : List Action}
    {last : Machine.History WriteLoop Tx}
    (ran : (machine lowerBound).run ⟨start client, []⟩ actions = .ok last)
    (only : last.state.announcing = 1) (late : ¬ InTime lowerBound last .userTestAndSet) :
    ∃ final, (machine lowerBound).run last [.userTestAndSet, .clear] = .ok final ∧
      final.state.Lost lowerBound := by
  obtain ⟨clearing, missed⟩ := Classical.not_imp.mp late
  have exclusive := exclusive_of_run ran
  unfold Exclusive holders at exclusive
  rw [clearing] at exclusive
  obtain ⟨running, unposted, written⟩ :
      last.state.txRunning = true ∧ last.state.posted = 0 ∧ last.state.writes = 0 := by
    cases running : last.state.txRunning with
    | false =>
        rw [running] at exclusive
        cases exclusive
    | true =>
        rw [running] at exclusive
        simp only [↓reduceIte] at exclusive
        exact ⟨rfl, by omega, by omega⟩
  refine ⟨⟨{ last.state with announcing := 0, txRunning := false, io := .idle },
    last.emitted⟩, ?_, ?_⟩
  · simp [Machine.run, Machine.advance, machine, WriteLoop.step, only, running, clearing]
  · exact ⟨not_not.mp missed, rfl, unposted, by rintro ⟨⟩, written, rfl, by rintro ⟨⟩⟩

/-- A connected client without anything to send. -/
def connected : Client := { Client.create with isConnected := true }

/-- A request is sent after the loop has come to rest. It is written, and the loop rests
again. -/
def restThenSend : List Action :=
  [.ioTestAndSet, .ioPost, .lambda, .clear, .send (Client.sampleRequest .get [] []),
    .userTestAndSet, .userPost, .lambda, .complete, .ioTestAndSet, .ioPost, .lambda, .clear]

/-- A request that comes when the chain is at rest is sent. -/
theorem wakeup_not_lost_after_rest :
    ∃ last, (machine .linear).run ⟨start connected, []⟩ restThenSend = .ok last ∧
      last.emitted ≠ [] ∧ ¬ last.state.Lost .linear := by
  have passes : ((machine .linear).run ⟨start connected, []⟩ restThenSend).toOption.any
      (fun last => decide (last.emitted ≠ [] ∧
        (machine .linear).Along (InTime .linear) ⟨start connected, []⟩ restThenSend)) = true := by
    decide +kernel
  obtain ⟨last, ran, checks⟩ := Outcome.exists_ok_of_any passes
  obtain ⟨written, inTime⟩ := of_decide_eq_true checks
  exact ⟨last, ran, written, wakeup_not_lost .linear _ _ last inTime ran⟩

/-- A stream is added after an empty `get_tx_data`, its thread finds the flag set, and then
the lambda clears the flag: the stream stays in the queue. -/
theorem wakeup_lost :
    ∃ last, (machine .linear).run ⟨start connected, []⟩ [.ioTestAndSet, .ioPost, .lambda,
        .send (Client.sampleRequest .get [] []), .userTestAndSet, .clear] = .ok last ∧
      last.state.client.registry.queue = [some 0] ∧ last.state.Lost .linear := by
  have passes : ((machine .linear).run ⟨start connected, []⟩ [.ioTestAndSet, .ioPost, .lambda,
      .send (Client.sampleRequest .get [] []), .userTestAndSet, .clear]).toOption.any
      (fun last => decide (last.state.client.registry.queue = [some 0] ∧
        last.state.Lost .linear)) = true := by
    decide +kernel
  obtain ⟨last, ran, checks⟩ := Outcome.exists_ok_of_any passes
  obtain ⟨queued, lost⟩ := of_decide_eq_true checks
  exact ⟨last, ran, queued, lost⟩

end WriteLoop

/-! ## The session

The session takes `init_write`, the posted lambda and `on_data_write` as one step each.
Such a step is a run of the threads in which nobody comes between.
-/

namespace Session

/-- The part of a session that writes, between two steps of the session. -/
def writing (session : Session) : WriteLoop :=
  ⟨session.client, session.txRunning, 0, 0, .idle, session.posted, session.writes⟩

/-- The events of the session that are made of steps of the loop. -/
def Event.writes : Event → Bool
  | .send _ | .posted | .written => true
  | _ => false

private theorem writing_initWrite {lowerBound : LowerBound} (session : Session)
    (emitted : List Tx) :
    ∃ actions, (WriteLoop.machine lowerBound).run
      ⟨{ session.writing with announcing := 1 }, emitted⟩ actions =
        .ok ⟨session.initWrite.writing, emitted⟩ := by
  cases running : session.txRunning with
  | true =>
      refine ⟨[.userTestAndSet], ?_⟩
      simp [Machine.run, Machine.advance, WriteLoop.machine, WriteLoop.step, writing, initWrite,
        running]
  | false =>
      refine ⟨[.userTestAndSet, .userPost], ?_⟩
      simp [Machine.run, Machine.advance, WriteLoop.machine, WriteLoop.step, writing, initWrite,
        running]

private theorem writing_checkShutdown (session : Session) :
    session.checkShutdown.writing = session.writing := by
  unfold checkShutdown
  split <;> rfl

private theorem writing_runPosted {lowerBound : LowerBound} {session next : Session} {out : List Tx}
    (waits : session.posted ≠ 0)
    (ran : { session with posted := session.posted - 1 }.runPosted lowerBound = .ok (next, out))
    (emitted : List Tx) :
    ∃ actions, (WriteLoop.machine lowerBound).run ⟨session.writing, emitted⟩ actions =
      .ok ⟨next.writing, emitted ++ out⟩ := by
  obtain ⟨⟨client, txQueue⟩, asked, rest⟩ := Outcome.bind_eq_ok.mp ran
  cases txQueue with
  | nil =>
      have same : next.writing = { session.writing with
          client, txRunning := false, posted := session.posted - 1 } := by
        cases rest
        split
        · exact writing_checkShutdown _
        · rfl
      cases rest
      refine ⟨[.lambda, .clear], ?_⟩
      rw [same]
      simp [Machine.run, Machine.advance, WriteLoop.machine, WriteLoop.step, WriteLoop.ask,
        writing, waits, asked]
  | cons first others =>
      cases rest
      refine ⟨[.lambda], ?_⟩
      simp [Machine.run, Machine.advance, WriteLoop.machine, WriteLoop.step, WriteLoop.ask,
        writing, waits, asked]

/-- **Steps of the session.** What the session does in one step when it writes, the threads
do in several. -/
theorem step_writing {lowerBound : LowerBound} {session next : Session} {event : Event}
    {out : List Tx} (stepped : (machine lowerBound).step session event = .ok (next, out))
    (writes : event.writes = true) (emitted : List Tx) :
    ∃ actions, (WriteLoop.machine lowerBound).run ⟨session.writing, emitted⟩ actions =
      .ok ⟨next.writing, emitted ++ out⟩ := by
  cases step_stepped stepped with
  | idle => exact ⟨[], by rw [List.append_nil]; rfl⟩
  | @send request client added =>
      obtain ⟨actions, ran⟩ := @writing_initWrite lowerBound { session with client } emitted
      rw [List.append_nil]
      refine ⟨.send request :: actions, Outcome.bind_eq_ok.mpr ⟨_, ?_, ran⟩⟩
      simp [Machine.advance, WriteLoop.machine, WriteLoop.step, writing, added]
  | posted waits ran => exact writing_runPosted waits ran emitted
  | written outstanding =>
      refine ⟨[.complete, .ioTestAndSet, .ioPost], ?_⟩
      simp [Machine.run, Machine.advance, WriteLoop.machine, WriteLoop.step, writing,
        onDataWrite, initWrite, outstanding]
  | _ => cases writes

end Session

end H2pp.Http2

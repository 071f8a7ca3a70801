import H2pp.Http2.SessionRefinement
import H2pp.Http2.StreamIds

/-! # A session and its transport

The transport reads into the input buffer and writes from buffers that the session keeps in
`tx_queue_sent`. It is never asked for two reads or two writes at the same time, a read always
has room, the buffer for it stays small whatever the server sends, and what is being written
is kept until the write is over.
-/

namespace H2pp.Http2

open Utils Hpack

namespace Reader

variable {Client : Type} {handlers : Handlers Client} {keeps : Client → Prop} {limit : Nat}

/-- The size that buffers may have, when frames may have `limit` bytes of payload. -/
def largest (limit : Nat) : Nat := max 64 (headerSize + limit)

/-- The loop gives back the buffer it has, or a new one. -/
theorem returned_maxSize {state : ReadState Client} (small : state.ioBuff.maxSize ≤ largest limit) :
    (returned state).maxSize ≤ largest limit := by
  unfold returned
  split
  · exact Nat.le_max_left _ _
  · split <;> exact small

/-- What can be read into a buffer: it is not too large, and unless there was an error it has
room for more. -/
structure Readable (limit : Nat) (buffer : Buffer) (failed : Bool) : Prop where
  small : buffer.maxSize ≤ largest limit
  room : failed = false → 64 ≤ buffer.maxSize ∧ 0 < buffer.prepareSize

private theorem readable_failed {state : ReadState Client}
    (small : state.ioBuff.maxSize ≤ largest limit) :
    Readable limit (returned state) true :=
  ⟨returned_maxSize small, by rintro ⟨⟩⟩

private theorem readable_returned {state : ReadState Client} (tracks : Tracks state)
    (small : state.ioBuff.maxSize ≤ largest limit)
    (room : state.incoming.size < state.ioBuff.maxSize) : Readable limit (returned state) false :=
  ⟨returned_maxSize small, fun _ =>
    ⟨(returned_spec tracks).2.1, (returned_spec tracks).2.2 room⟩⟩

/-- The loop leaves a buffer that can be read into. -/
theorem readLoop_readable (kept : Keeps handlers keeps)
    (bounded : ∀ client, keeps client → handlers.maxFrameSize client ≤ limit) {fuel : Nat}
    {state : ReadState Client} {outcome : ReadState Client × Option Failure}
    (start : keeps state.client) (tracks : Tracks state)
    (small : state.ioBuff.maxSize ≤ largest limit) (enough : state.incoming.size ≤ fuel)
    (ran : readLoop handlers fuel state = outcome)
    (defined : outcome.2 ≠ some .undefinedBehaviour) :
    Readable limit (returned outcome.1) outcome.2.isSome := by
  have header : headerSize = 9 := rfl
  induction fuel generalizing state with
  | zero =>
      cases ran
      exact readable_returned tracks small (Nat.lt_of_le_of_lt enough
        (Nat.lt_of_lt_of_le (by decide) tracks.large))
  | succ fuel ih =>
      by_cases few : state.incoming.size < headerSize
      · rw [readLoop, if_pos few] at ran
        cases ran
        exact readable_returned tracks small
          (Nat.lt_of_lt_of_le few (Nat.le_trans (by decide) tracks.large))
      obtain ⟨frame, analyzed, payload, _, content, size⟩ :=
        FrameAnalyzer.fromBuffer_spec state.incoming (Nat.not_lt.mp few)
      rw [← payload, ← FrameAnalyzer.size] at content size
      have long := frame.long
      -- the loop goes on behind a frame whose handler has returned
      have goes {client : Client} (handled : keeps client)
          (later : readLoop handlers fuel (advance state client frame.buffer.size) = outcome) :
          Readable limit (returned outcome.1) outcome.2.isSome := by
        refine @ih (advance state client frame.buffer.size) handled
          (advance_tracks tracks client (by omega)) small ?_ later
        have left : (advance state client frame.buffer.size).incoming.size =
            state.incoming.size - frame.buffer.size := rfl
        omega
      rcases frame.check_cases (handlers.maxFrameSize state.client) with
        ⟨_, code, what, thrown⟩ | ⟨accepted, passed⟩
      · simp only [readLoop, few, ↓reduceIte, analyzed, thrown] at ran
        cases ran
        exact readable_failed small
      have payloadSize := (not_or.mp accepted).2
      have allowed := bounded state.client start
      by_cases partly : state.incoming.size < frame.size
      · have whole : frame.buffer.bytes = state.incoming.bytes := by
          rw [content, List.take_of_length_le]
          rw [Span.length_bytes]
          exact Nat.le_of_lt partly
        have incomplete : frame.isComplete = false := by
          rw [FrameAnalyzer.isComplete, decide_eq_false_iff_not]
          omega
        obtain ⟨_, incoming, tracked, room⟩ := reserve_spec tracks whole partly
        simp only [readLoop, few, ↓reduceIte, analyzed, passed, incomplete,
          Bool.false_eq_true] at ran
        cases ran
        refine readable_returned tracked ?_ (incoming ▸ room)
        unfold reserve
        split
        · have total : frame.size = headerSize + frame.payloadSize := rfl
          simp only [Buffer.commit_maxSize, Buffer.create_maxSize, largest]
          omega
        · exact small
      · have complete : frame.isComplete = true := by
          rw [FrameAnalyzer.isComplete, decide_eq_true_eq]
          omega
        simp only [readLoop, few, ↓reduceIte, analyzed, passed, complete] at ran
        split at ran
        · split at ran
          · -- the buffer is moved into the handler
            split at ran
            · cases ran
              exact @readable_failed _ _ ⟨_, .movedFrom, state.incoming, 0⟩ (Nat.zero_le _)
            · cases ran
              exact ⟨Nat.le_max_left _ _, fun _ => ⟨Nat.le_refl 64, (by decide : 0 < 64)⟩⟩
          · split at ran
            · cases ran
              exact readable_failed small
            · rename_i client called
              refine goes ?_ ran
              have handled := kept.data state.client
                ((Buffer.create frame.buffer.size).commit frame.buffer.bytes) start
              rw [called] at handled
              exact handled (by rintro ⟨⟩)
        · split at ran
          · cases ran
            exact readable_failed small
          · rename_i client called
            refine goes ?_ ran
            have handled := kept.frame state.client frame.buffer start
            rw [called] at handled
            exact handled (by rintro ⟨⟩)

/-- A call of `on_read` leaves a buffer that can be read into, or starts a disconnection. -/
theorem onRead_readable (kept : Keeps handlers keeps)
    (bounded : ∀ client, keeps client → handlers.maxFrameSize client ≤ limit)
    {around : Int → UInt8} {client next : Client} {buffer after : Buffer} (start : keeps client)
    (large : 64 ≤ buffer.maxSize) (small : buffer.maxSize ≤ largest limit)
    (read : onRead handlers around client buffer = .ok (next, after)) :
    Readable limit after false ∨ Readable limit after true ∧
      ∃ before ec, next = handlers.initWrite (handlers.initiateDisconnect before ec) := by
  unfold onRead at read
  split at read
  · rename_i few
    cases read
    have header : headerSize = 9 := rfl
    refine .inl ⟨small, fun _ => ⟨large, ?_⟩⟩
    rw [Buffer.prepareSize]
    omega
  · have tracks : Tracks (⟨client, buffer, Span.ofBytes around buffer.data, 0⟩ :
        ReadState Client) := ⟨Span.bytes_ofBytes _ _, Nat.zero_le _, large⟩
    have loop := @readLoop_readable _ handlers _ _ kept bounded buffer.data.length
      ⟨client, buffer, Span.ofBytes around buffer.data, 0⟩ _ start tracks small (Nat.le_refl _) rfl
    generalize readLoop handlers buffer.data.length
      ⟨client, buffer, Span.ofBytes around buffer.data, 0⟩ = outcome at loop read
    obtain ⟨state, failure⟩ := outcome
    cases failure with
    | none =>
        cases read
        exact .inl (loop (by rintro ⟨⟩))
    | some failure =>
        cases failure with
        | undefinedBehaviour => cases read
        | _ =>
            cases read
            exact .inr ⟨loop (by rintro ⟨⟩), _, _, rfl⟩

end Reader

namespace Session

variable {lowerBound : LowerBound} {session next : Session} {event : Event}

/-- What a session asks of its transport: one read at most, into a buffer that is not too
large and has room. -/
structure Exclusive (session : Session) : Prop where
  settings : session.client.settings.localSettings = {}
  once : session.reads ≤ 1
  small : session.inputBuffer.maxSize ≤ Reader.largest ({} : Settings).maxFrameSize
  room : session.reads ≠ 0 → 64 ≤ session.inputBuffer.maxSize ∧ 0 < session.inputBuffer.prepareSize

namespace Exclusive

private theorem withClient (exclusive : session.Exclusive) {client : Client}
    (same : client.settings.localSettings = session.client.settings.localSettings) :
    { session with client }.Exclusive where
  settings := same.trans exclusive.settings
  once := exclusive.once
  small := exclusive.small
  room := exclusive.room

private theorem initWrite (exclusive : session.Exclusive) : session.initWrite.Exclusive := by
  unfold Session.initWrite
  split
  · exact exclusive
  · exact ⟨exclusive.settings, exclusive.once, exclusive.small, exclusive.room⟩

private theorem initiateDisconnect (exclusive : session.Exclusive) (ec : ErrorCode)
    (handler : Bool) :
    (session.initiateDisconnect ec handler).Exclusive := by
  have core := (session.client.initiateDisconnect_changes ec).core
  have client := exclusive.withClient ((congrArg (·.settings.localSettings) core).trans
    (session.client.core.disconnected_settings ec).1)
  refine initiateDisconnect_keeps ec handler (fun _ => initWrite) (fun _ _ => ?_) fun _ _ _ => ?_
  · exact ⟨exclusive.settings, exclusive.once, exclusive.small, exclusive.room⟩
  · exact ⟨client.settings, client.once, client.small, client.room⟩

end Exclusive

/-- Whatever it was before, the flag is set when a disconnection has been started. -/
theorem initiateDisconnect_started (session : Session) (ec : ErrorCode) (handler : Bool) :
    (session.initiateDisconnect ec handler).client.startDisconnect = true := by
  rw [(initiateDisconnect_client session ec handler).1]
  exact congrArg Client.Core.startDisconnect (session.client.initiateDisconnect_changes ec).core

/-- What the handlers of frames keep. -/
theorem handlers_exclusive (around : Int → UInt8) (writes : Nat) :
    Reader.Keeps (handlers around) fun session =>
      session.Exclusive ∧ session.reads = 0 ∧ session.writes = writes where
  frame session data kept _ := by
    have core := (session.client.onReceiveFrame_changes data).core
    have client := kept.1.withClient ((congrArg (·.settings.localSettings) core).trans
      (session.client.settingsAfter_frame data))
    exact ⟨⟨client.settings, client.once, client.small, client.room⟩, kept.2⟩
  data session buff kept _ := by
    refine ⟨kept.1.withClient ?_, kept.2⟩
    exact congrArg (·.settings.localSettings) (session.client.onReceiveDataFrame_changes _).core

/-- Bytes are read, and the next read is started. -/
theorem Exclusive.onDataRead (exclusive : session.Exclusive) (under : session.reads ≠ 0)
    {around : Int → UInt8} {bytes : Bytes}
    (read : { session with reads := session.reads - 1 }.onDataRead around bytes = .ok next) :
    next.Exclusive ∧ next.writes = session.writes := by
  have once := exclusive.once
  have none : session.reads - 1 = 0 := by omega
  have before : { session with reads := session.reads - 1 }.Exclusive :=
    ⟨exclusive.settings, Nat.le_trans (Nat.le_of_eq none) (Nat.zero_le _), exclusive.small,
      fun some => absurd none some⟩
  obtain ⟨⟨after, buffer⟩, handled, same⟩ := Outcome.bind_eq_ok.mp read
  cases same
  obtain ⟨kept, resting, writes⟩ := Reader.onRead_keeps (handlers_exclusive around session.writes)
    (fun client ec kept => by
      obtain ⟨_, reads, writes⟩ := initiateDisconnect_client client ec false
      exact ⟨kept.1.initiateDisconnect ec false, reads.trans kept.2.1, writes.trans kept.2.2⟩)
    (fun client kept => by
      obtain ⟨_, reads, writes⟩ := initWrite_client client
      exact ⟨kept.1.initWrite, reads.trans kept.2.1, writes.trans kept.2.2⟩)
    ⟨before, none, rfl⟩ handled
  have large : 64 ≤ (session.inputBuffer.commit bytes).maxSize := (exclusive.room under).1
  have small : (session.inputBuffer.commit bytes).maxSize ≤ Reader.largest _ := exclusive.small
  have readable := Reader.onRead_readable (handlers_exclusive around session.writes)
    (fun client kept => Nat.le_of_eq (congrArg Settings.maxFrameSize kept.1.settings))
    ⟨before, none, rfl⟩ large small handled
  have stopped : { after with inputBuffer := buffer }.Exclusive := by
    have small : buffer.maxSize ≤ Reader.largest _ :=
      readable.elim (fun fine => fine.small) (fun failed => failed.1.small)
    exact ⟨kept.settings, kept.once, small, fun some => absurd resting some⟩
  unfold initRead
  split
  · exact ⟨stopped, writes⟩
  · rename_i connected
    refine ⟨⟨kept.settings, Nat.le_of_eq (congrArg (· + 1) resting), stopped.small, fun _ => ?_⟩,
      writes⟩
    rcases readable with readable | ⟨_, client, ec, rfl⟩
    · exact readable.room rfl
    · -- the disconnection has started, so nothing is read any more
      refine absurd ?_ connected
      have same := (initWrite_client ((handlers around).initiateDisconnect client ec)).1
      exact (congrArg Client.startDisconnect same).trans
        (initiateDisconnect_started client ec false)

/-- An event of the client. -/
theorem Exclusive.react (exclusive : session.Exclusive) {event : Client.Event} {client : Client}
    (reacted : session.client.react event = .ok client) : { session with client }.Exclusive := by
  refine ⟨?_, exclusive.once, exclusive.small, exclusive.room⟩
  rcases Client.react_localSettings reacted with same | fresh
  · exact same.trans exclusive.settings
  · exact fresh

/-! ## Steps -/

/-- The buffers in `tx_queue_sent`, those that the write under way was given, and those that
were written. -/
structure Sending where
  queue : List Tx
  underway : List Tx
  written : List Tx

/-- A write is started or ends. `on_data_write` empties `tx_queue_sent` if there was no
error. -/
def tracked (lowerBound : LowerBound) (session : Session) (event : Event) (sending : Sending) :
    Sending :=
  match event with
  | .posted =>
      match (machine lowerBound).step session .posted with
      | .ok (_, []) => sending
      | .ok (_, out) => { sending with queue := sending.queue ++ out, underway := out }
      | .error _ => sending
  | .written =>
      if session.writes = 0 then sending else ⟨[], [], sending.written ++ sending.underway⟩
  | .writeError _ => if session.writes = 0 then sending else { sending with underway := [] }
  | _ => sending

private theorem tracked_idle
    (stepped : (machine lowerBound).step session event = .ok (session, []))
    (idle : session.Idle event) (sending : Sending) :
    tracked lowerBound session event sending = sending := by
  cases event with
  | posted => simp only [tracked, stepped]
  | written => exact if_pos idle
  | writeError ec => exact if_pos idle
  | _ => rfl

/-- What a step does to the writes and to the buffers, with what it emits. -/
inductive Wrote (session next : Session) (sending : Sending) :
    Event → List Tx → Sending → Prop where
  | aside {event : Event} (same : next.writes = session.writes) :
      Wrote session next sending event [] sending
  | started {out : List Tx} (some : out ≠ []) (idle : session.writes = 0) (one : next.writes = 1) :
      Wrote session next sending .posted out
        { sending with queue := sending.queue ++ out, underway := out }
  | done (idle : next.writes = 0) :
      Wrote session next sending .written [] ⟨[], [], sending.written ++ sending.underway⟩
  | broken {ec : ErrorCode} (idle : next.writes = 0) :
      Wrote session next sending (.writeError ec) [] { sending with underway := [] }

/-- The function that was posted asks for no read. -/
theorem Exclusive.runPosted {out : List Tx} (exclusive : session.Exclusive)
    (ran : { session with posted := session.posted - 1 }.runPosted lowerBound = .ok (next, out)) :
    next.Exclusive := by
  obtain ⟨⟨client, queue⟩, sent, rest⟩ := Outcome.bind_eq_ok.mp ran
  have settings : client.settings.localSettings = {} :=
    (congrArg (·.settings.localSettings) (Client.getTxData_core sent)).trans exclusive.settings
  simp only at rest
  split at rest
  · cases rest
    split <;> exact ⟨settings, exclusive.once, exclusive.small, exclusive.room⟩
  · cases rest
    exact ⟨settings, exclusive.once, exclusive.small, exclusive.room⟩

/-- **A step.** Whatever happens, the transport is asked for one read and one write at most.
Only a posted function starts a write, and only its end frees the buffers. -/
theorem Exclusive.step {out : List Tx} (exclusive : session.Exclusive) (chain : session.OneChain)
    (buffers : Sending)
    (stepped : (machine lowerBound).step session event = .ok (next, out)) :
    next.Exclusive ∧
      Wrote session next buffers event out (tracked lowerBound session event buffers) := by
  cases step_stepped stepped with
  | idle idle =>
      rw [tracked_idle stepped idle buffers]
      exact ⟨exclusive, .aside rfl⟩
  | synced =>
      exact ⟨⟨exclusive.settings, exclusive.once, exclusive.small, exclusive.room⟩, .aside rfl⟩
  | disconnect =>
      exact ⟨exclusive.initiateDisconnect _ _,
        .aside (initiateDisconnect_client session _ _).2.2⟩
  | send accepted =>
      have same := congrArg (·.settings.localSettings) (Client.initiateSend_core accepted)
      exact ⟨(exclusive.withClient same).initWrite, .aside (initWrite_client _).2.2⟩
  | ping reacted => exact ⟨exclusive.react reacted, .aside rfl⟩
  | settingsTimeout reacted =>
      have reacts := exclusive.react reacted
      exact ⟨⟨reacts.settings, reacts.once, reacts.small, reacts.room⟩, .aside rfl⟩
  | streamTimeout reacted => exact ⟨exclusive.react reacted, .aside rfl⟩
  | posted some ran =>
      have after := exclusive.runPosted ran
      have idle := (chain.takePosted some).2
      have writes := (chain.runPosted some ran).2
      simp only [tracked, stepped]
      cases out with
      | nil => exact ⟨after, .aside (writes.trans idle.symm)⟩
      | cons first rest => exact ⟨after, .started (List.cons_ne_nil _ _) idle writes⟩
  | read under read =>
      obtain ⟨after, writes⟩ := exclusive.onDataRead under read
      exact ⟨after, .aside writes⟩
  | readError =>
      unfold failed
      split <;> exact ⟨⟨exclusive.settings, Nat.le_trans (Nat.sub_le _ _) exclusive.once,
        exclusive.small, fun some => exclusive.room (by simp only at some; omega)⟩, .aside rfl⟩
  | written some =>
      rw [tracked, if_neg some]
      have stopped : { session with
          writes := session.writes - 1, txRunning := false }.Exclusive :=
        ⟨exclusive.settings, exclusive.once, exclusive.small, exclusive.room⟩
      refine ⟨stopped.initWrite, .done ?_⟩
      have same := (initWrite_client { session with
        writes := session.writes - 1, txRunning := false }).2.2
      exact same.trans (chain.takeWrite some).2
  | writeError some =>
      rw [tracked, if_neg some]
      have idle := (chain.takeWrite some).2
      unfold onWriteError failed
      split <;> exact ⟨⟨exclusive.settings, exclusive.once, exclusive.small, exclusive.room⟩,
        .broken idle⟩
  | disconnected =>
      exact ⟨⟨exclusive.settings, exclusive.once, exclusive.small, exclusive.room⟩, .aside rfl⟩

/-! ## Reads -/

private theorem coInit_exclusive {start : Session} (opened : create.coInit = .ok start) :
    start.Exclusive := by
  cases opened
  exact ⟨rfl, Nat.le_refl 1, by decide, fun _ => by decide⟩

/-- **Reads.** In every run of a session, with reads of any bytes and errors of any kind, at
most one read is under way, the input buffer is never larger than the largest frame, and
there is room in it whenever a read is under way. -/
theorem reads_have_room (lowerBound : LowerBound) (start : Session) (events : List Event)
    (last : Machine.History Session Tx) (opened : create.coInit = .ok start)
    (ran : (machine lowerBound).run ⟨start, []⟩ events = .ok last) :
    last.state.reads ≤ 1 ∧ last.state.inputBuffer.maxSize ≤ headerSize + 16384 ∧
      (last.state.reads = 1 → 0 < last.state.inputBuffer.prepareSize) := by
  obtain ⟨exclusive, _⟩ : last.state.Exclusive ∧ last.state.OneChain := by
    refine @Machine.run_kept _ _ _ _ _
      (fun history => history.state.Exclusive ∧ history.state.OneChain) ?_ _ _ _
      ⟨coInit_exclusive opened, coInit_oneChain opened⟩ ran
    rintro history event next ⟨exclusive, chain⟩ taken
    obtain ⟨state, out, stepped, rfl⟩ := Machine.advance_eq_ok taken
    exact ⟨(exclusive.step chain ⟨[], [], []⟩ stepped).1, chain.step stepped⟩
  refine ⟨exclusive.once, exclusive.small, fun under => (exclusive.room ?_).2⟩
  rw [under]
  decide

/-- The session is connected, and has read the first bytes of a frame of 1000 bytes. -/
def longFrame : List Event := connection ++ [.read (fun _ => 0) [0, 3, 223, 0, 0, 0, 0, 0, 1, 7, 7]]

/-- The buffer has grown to the size of the frame, and there is room for the rest of it. -/
theorem reads_have_room_longFrame :
    ∃ start last, create.coInit = .ok start ∧
      (machine .linear).run ⟨start, []⟩ longFrame = .ok last ∧ last.state.reads = 1 ∧
      last.state.inputBuffer.maxSize = 1000 ∧ 0 < last.state.inputBuffer.prepareSize := by
  have passes : (runNew longFrame).toOption.any (fun outcome => decide (
      outcome.2.state.reads = 1 ∧ outcome.2.state.inputBuffer.maxSize = 1000)) = true := by
    decide +kernel
  obtain ⟨⟨start, last⟩, ran, checks⟩ := Outcome.exists_ok_of_any passes
  obtain ⟨opened, ran⟩ := runNew_ok ran
  obtain ⟨under, size⟩ := of_decide_eq_true checks
  exact ⟨start, last, opened, ran, under, size,
    (reads_have_room .linear start longFrame last opened ran).2.2 under⟩

/-! ## What is being written -/

/-- A session with its buffers. -/
def sending (lowerBound : LowerBound) : Machine (Session × Sending) Event Tx Failure :=
  (machine lowerBound).observed (tracked lowerBound)

/-- The buffers of the write under way are the last ones in `tx_queue_sent`. -/
structure Keeping (history : Machine.History (Session × Sending) Tx) : Prop where
  exclusive : history.state.1.Exclusive
  chain : history.state.1.OneChain
  kept : history.state.2.underway <:+ history.state.2.queue
  idle : history.state.1.writes = 0 ↔ history.state.2.underway = []

/-- Everything that was taken from the client is written, or is being written. -/
structure Faultless (history : Machine.History (Session × Sending) Tx) : Prop
    extends Keeping history where
  exact : history.state.2.queue = history.state.2.underway
  emitted : history.state.2.written ++ history.state.2.underway = history.emitted

section Buffers

variable {out emitted : List Tx} {buffers later : Sending}
  {history after : Machine.History (Session × Sending) Tx}

private theorem Keeping.wrote (keeping : Keeping ⟨(session, buffers), emitted⟩)
    (exclusive : next.Exclusive) (chain : next.OneChain)
    (wrote : Wrote session next buffers event out later) :
    Keeping ⟨(next, later), emitted ++ out⟩ := by
  refine ⟨exclusive, chain, ?_, ?_⟩
  · cases wrote with
    | aside same => exact keeping.kept
    | started some idle one => exact List.suffix_append _ _
    | done idle => exact List.suffix_rfl
    | broken idle => exact List.nil_suffix
  · cases wrote with
    | aside same => exact same ▸ keeping.idle
    | started some idle one => exact iff_of_false (one ▸ Nat.one_ne_zero) some
    | done idle => exact iff_of_true idle rfl
    | broken idle => exact iff_of_true idle rfl

private theorem Faultless.wrote (faultless : Faultless ⟨(session, buffers), emitted⟩)
    (exclusive : next.Exclusive) (chain : next.OneChain) (fine : ∀ ec, event ≠ .writeError ec)
    (wrote : Wrote session next buffers event out later) :
    Faultless ⟨(next, later), emitted ++ out⟩ := by
  obtain ⟨keeping, exact, all⟩ := faultless
  refine ⟨keeping.wrote exclusive chain wrote, ?_, ?_⟩
  · cases wrote with
    | aside same => exact exact
    | started some idle one =>
        -- nothing was being written, so nothing was kept
        have nothing : buffers.queue = [] := exact.trans (keeping.idle.mp idle)
        simp only [nothing, List.nil_append]
    | done idle => rfl
    | broken idle => exact absurd rfl (fine _)
  · cases wrote with
    | aside same => exact all.trans (List.append_nil _).symm
    | started some idle one =>
        have nothing : buffers.underway = [] := keeping.idle.mp idle
        simp only [nothing, List.append_nil] at all
        exact congrArg (· ++ out) all
    | done idle => simpa only [List.append_nil] using all
    | broken idle => exact absurd rfl (fine _)

private theorem Keeping.advance (keeping : Keeping history)
    (taken : (sending lowerBound).advance history event = .ok after) : Keeping after := by
  obtain ⟨state, out, stepped, rfl⟩ := Machine.observed_advance taken
  obtain ⟨exclusive, wrote⟩ := keeping.exclusive.step keeping.chain history.state.2 stepped
  exact keeping.wrote exclusive (keeping.chain.step stepped) wrote

private theorem Faultless.advance (faultless : Faultless history)
    (fine : ∀ ec, event ≠ .writeError ec)
    (taken : (sending lowerBound).advance history event = .ok after) : Faultless after := by
  obtain ⟨state, out, stepped, rfl⟩ := Machine.observed_advance taken
  obtain ⟨exclusive, wrote⟩ := faultless.exclusive.step faultless.chain history.state.2 stepped
  exact faultless.wrote exclusive (faultless.chain.step stepped) fine wrote

end Buffers

/-- **Writes.** In every run of a session at most one write is under way, and the buffers it
was given stay in `tx_queue_sent` until it ends. As long as no write fails nothing else is in
there, and the buffers that were written, with those that are being written, are all that was
taken from the client, in order. -/
theorem writes_keep_buffers (lowerBound : LowerBound) (start : Session) (events : List Event)
    (last : Machine.History (Session × Sending) Tx) (opened : create.coInit = .ok start)
    (ran : (sending lowerBound).run ⟨(start, ⟨[], [], []⟩), []⟩ events = .ok last) :
    last.state.1.writes ≤ 1 ∧ (last.state.1.writes = 0 ↔ last.state.2.underway = []) ∧
      last.state.2.underway <:+ last.state.2.queue ∧
      ((∀ ec, .writeError ec ∉ events) → last.state.2.queue = last.state.2.underway ∧
        last.state.2.written ++ last.state.2.underway = last.emitted) := by
  have first : Faultless ⟨(start, ⟨[], [], []⟩), []⟩ := by
    refine ⟨⟨coInit_exclusive opened, coInit_oneChain opened, List.suffix_rfl,
      iff_of_true ?_ rfl⟩, rfl, rfl⟩
    cases opened
    rfl
  have keeping : Keeping last :=
    @Machine.run_kept _ _ _ _ _ Keeping (fun _ _ _ keeping taken => keeping.advance taken) _ _ _
      first.toKeeping ran
  refine ⟨keeping.chain.writes_le, keeping.idle, keeping.kept, fun fine => ?_⟩
  · have faultless : Faultless last := by
      refine @Machine.run_invariant _ _ _ _ _ (fun _ event => ∀ ec, event ≠ .writeError ec)
        Faultless (fun _ _ _ faultless fine taken => faultless.advance fine taken) _ _ _ first
        (Machine.along_of_mem ?_ _) ran
      rintro _ member ec rfl
      exact fine ec member
    exact ⟨faultless.exact, faultless.emitted⟩

/-- A request is sent, and is being written. -/
def requestUnderWay : List Event :=
  connection ++ [.send (Client.sampleRequest .get [] []), .posted]

/-- The buffers of the request are in `tx_queue_sent` while they are written. -/
theorem writes_keep_buffers_requestUnderWay :
    ∃ start last, create.coInit = .ok start ∧
      (sending .linear).run ⟨(start, ⟨[], [], []⟩), []⟩ requestUnderWay = .ok last ∧
      last.state.1.writes = 1 ∧ last.state.2.queue = last.state.2.underway ∧
      last.state.2.written ++ last.state.2.underway = last.emitted := by
  have passes : (create.coInit.bind fun start =>
      ((sending .linear).run ⟨(start, ⟨[], [], []⟩), []⟩ requestUnderWay).map
        fun last => (start, last)).toOption.any
      (fun outcome => decide (outcome.2.state.1.writes = 1)) = true := by
    decide +kernel
  obtain ⟨⟨start, last⟩, both, checks⟩ := Outcome.exists_ok_of_any passes
  obtain ⟨first, opened, rest⟩ := Outcome.bind_eq_ok.mp both
  obtain ⟨history, ran, same⟩ := Outcome.bind_eq_ok.mp rest
  cases same
  have none : ∀ ec, Event.writeError ec ∉ requestUnderWay := by
    intro ec member
    simp [requestUnderWay, connection] at member
  exact ⟨start, last, opened, ran, of_decide_eq_true checks,
    (writes_keep_buffers .linear start requestUnderWay last opened ran).2.2.2 none⟩

end Session

end H2pp.Http2

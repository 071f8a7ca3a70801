import H2pp.Http2.RequestFrames
import H2pp.Http2.Scheduling
import Mathlib.Data.List.Chain

/-! # Header blocks on the wire

A header block that does not fit in one frame is finished by CONTINUATION frames of
later calls. On the wire no other frame may stand between them. What is sent in between
is up to the queues: commands go first, and the streams take turns.
-/

namespace H2pp.Http2

open Utils Hpack

/-- A HEADERS or CONTINUATION frame without END_HEADERS. -/
def OutFrame.leavesOpen (frame : OutFrame) : Bool :=
  (frame.type = .headers || frame.type = .continuation) && !frame.endHeaders

/-- The stream whose header block is left open. -/
def Tx.openBlock : Tx → Option Nat
  | .command _ => none
  | .frame _ sent => if sent.leavesOpen then some sent.streamId else none

/-- A CONTINUATION frame of the stream. -/
def Tx.continues (id : Nat) : Tx → Bool
  | .command _ => false
  | .frame _ sent => sent.type = .continuation && sent.streamId = id

/-- Header blocks are contiguous: what follows a frame that leaves a block open is a
CONTINUATION frame of the same stream. -/
def Contiguous (emitted : List Tx) : Prop :=
  emitted.IsChain fun tx next => ∀ id ∈ tx.openBlock, next.continues id = true

instance (emitted : List Tx) : Decidable (Contiguous emitted) :=
  inferInstanceAs (Decidable (emitted.IsChain _))

namespace Stream

/-- The header block has been started and not finished. -/
def midBlock (stream : Stream) : Bool :=
  stream.isContinuation && stream.request.headerList ≠ []

private theorem midBlock_congr {stream other : Stream} (same : other.sending = stream.sending) :
    other.midBlock = stream.midBlock :=
  congrArg (fun part : Sending => part.isContinuation && part.request.headerList ≠ []) same

/-- Frames of which only the last may leave the header block of stream `id` open, and
only if the stream is left in the middle of it. -/
inductive BlockOut (id : Nat) (after : Stream) : List OutFrame → Prop
  | closed {out : List OutFrame} (closed : ∀ frame ∈ out, frame.leavesOpen = false) :
      BlockOut id after out
  | opened {before : List OutFrame} {frame : OutFrame}
      (closed : ∀ frame ∈ before, frame.leavesOpen = false)
      (own : frame.streamId = id) (middle : after.midBlock = true) :
      BlockOut id after (before ++ [frame])

/-- In the middle of its block a stream sends nothing, or goes on with the block. -/
def GoesOn (id : Nat) (after : Stream) (out : List OutFrame) : Prop :=
  out = [] ∧ after.midBlock = true ∨
    ∃ frame rest, out = frame :: rest ∧ frame.type = .continuation ∧ frame.streamId = id

variable {lowerBound : LowerBound} {stream : Stream} {encoder : Encoder} {limit : Nat} {turn : Turn}

private theorem BlockOut.congr {id : Nat} {after other : Stream} {out : List OutFrame}
    (blocks : BlockOut id after out) (same : other.midBlock = after.midBlock) :
    BlockOut id other out := by
  cases blocks with
  | closed closed => exact .closed closed
  | opened closed own middle => exact .opened closed own (same.trans middle)

private theorem leavesOpen_of_type {frame : OutFrame} (headers : frame.type ≠ .headers)
    (continuation : frame.type ≠ .continuation) : frame.leavesOpen = false := by
  unfold OutFrame.leavesOpen
  rw [decide_eq_false headers, decide_eq_false continuation]
  rfl

private theorem leavesOpen_of_endHeaders {frame : OutFrame} (ends : frame.endHeaders = true) :
    frame.leavesOpen = false := by
  rw [OutFrame.leavesOpen, ends, Bool.not_true, Bool.and_false]

/-- A frame after which the fields of `after` are left. -/
theorem blockOut_frame {id : Nat} {after : Stream} {frame : OutFrame}
    (ends : frame.endHeaders = decide (after.request.headerList = [])) (own : frame.streamId = id)
    (later : after.request.headerList ≠ [] → after.isContinuation = true) :
    BlockOut id after [frame] ∧
      (after.request.headerList = [] → ∀ other ∈ [frame], other.leavesOpen = false) := by
  have closed : after.request.headerList = [] → ∀ other ∈ [frame], other.leavesOpen = false := by
    intro none other member
    rw [List.mem_singleton.mp member]
    exact leavesOpen_of_endHeaders (ends.trans (decide_eq_true none))
  refine ⟨?_, closed⟩
  by_cases all : after.request.headerList = []
  · exact .closed (closed all)
  · refine @BlockOut.opened id after [] frame (fun _ member => (nomatch member)) own ?_
    rw [midBlock, later all, decide_eq_true all]
    rfl

/-- The headers of a request, as frames of its block. -/
theorem HeadersPrepared.blocks (listed : stream.request.headerList ≠ [])
    (prepared : HeadersPrepared lowerBound stream encoder limit turn) :
    (BlockOut stream.httpId turn.stream turn.out ∧
      (turn.stream.request.headerList = [] → ∀ frame ∈ turn.out, frame.leavesOpen = false)) ∧
      (stream.isContinuation = true → GoesOn stream.httpId turn.stream turn.out) := by
  cases prepared with
  | nothing encoded =>
      refine ⟨⟨.closed fun _ member => (nomatch member), fun none => absurd none listed⟩, ?_⟩
      intro later
      refine .inl ⟨rfl, ?_⟩
      rw [midBlock, later, decide_eq_true listed]
      rfl
  | headers encoded some first =>
      exact ⟨blockOut_frame (headersFlags_endHeaders _ _) rfl fun more => decide_eq_true more,
        fun later => absurd later (Bool.eq_false_iff.mp first)⟩
  | continuation encoded some later more =>
      exact ⟨blockOut_frame (blockFlags_endHeaders _).1 rfl fun _ => later,
        fun _ => .inr ⟨_, _, rfl, rfl, rfl⟩⟩
  | @closing buffers count after encoded some later all bodyless =>
      have closed : ∀ frame ∈ [{ FrameBuilder.continuation stream.httpId
            (blockFlags (stream.request.commitHeaders count))
            (buffers.flatMap Buffer.data).length with payload := buffers.flatMap Buffer.data },
          (FrameBuilder.data stream.httpId Flags.endStream 0).1], frame.leavesOpen = false := by
        intro frame member
        rcases List.mem_cons.mp member with rfl | last
        · exact leavesOpen_of_endHeaders ((blockFlags_endHeaders _).1.trans (decide_eq_true all))
        · rw [List.mem_singleton.mp last]
          exact leavesOpen_of_type nofun nofun
      exact ⟨⟨.closed closed, fun _ => closed⟩, fun _ => .inr ⟨_, _, rfl, rfl, rfl⟩⟩

private theorem update_closed {window : DummyWindow} {id : Nat} :
    ∀ frame ∈ (window.update id).1.toList, frame.leavesOpen = false := by
  unfold DummyWindow.update
  split
  · intro frame member
    rw [List.mem_singleton.mp member]
    exact leavesOpen_of_type nofun nofun
  · exact fun _ member => nomatch member

private theorem BlockOut.prepend {id : Nat} {after : Stream} {first out : List OutFrame}
    (closed : ∀ frame ∈ first, frame.leavesOpen = false) (blocks : BlockOut id after out) :
    BlockOut id after (first ++ out) := by
  cases blocks with
  | closed rest => exact .closed (List.forall_mem_append.mpr ⟨closed, rest⟩)
  | opened rest own middle =>
      rw [← List.append_assoc]
      exact .opened (List.forall_mem_append.mpr ⟨closed, rest⟩) own middle

/-- The header phase leaves at most its last frame open. -/
theorem headerPhase_blocks (sent : stream.headerPhase lowerBound encoder limit = .ok turn) :
    BlockOut stream.httpId turn.stream turn.out ∧
      (turn.stream.request.headerList = [] → ∀ frame ∈ turn.out, frame.leavesOpen = false) ∧
      (stream.midBlock = true → stream.localWindow.needUpdate = false →
        GoesOn stream.httpId turn.stream turn.out) := by
  obtain ⟨headers, prepared, same, _, out⟩ := headerPhase_spec sent
  rw [same, out]
  rcases prepared with ⟨listed, prepared⟩ | ⟨none, rfl⟩
  · have unopened : stream.opened.request.headerList ≠ [] := listed
    obtain ⟨⟨blocks, closed⟩, goesOn⟩ := prepared.blocks unopened
    refine ⟨blocks.prepend update_closed, fun none => ?_, fun middle quiet => ?_⟩
    · exact List.forall_mem_append.mpr ⟨update_closed, closed none⟩
    · have silent : stream.localWindow.update stream.httpId = (none, stream.localWindow) := by
        rw [DummyWindow.update, quiet]
        rfl
      rw [silent]
      exact goesOn (Bool.and_eq_true_iff.mp middle).1
  · refine ⟨.closed ?_, fun _ => ?_, fun middle => ?_⟩
    · exact (List.append_nil _).symm ▸ update_closed
    · exact (List.append_nil _).symm ▸ update_closed
    · exact absurd none (of_decide_eq_true (Bool.and_eq_true_iff.mp middle).2)

/-- A turn of a stream leaves at most its last frame open. A stream in the middle of
its block that has neither its end nor a window update to send goes on with it. -/
theorem getTxData_blocks (sent : stream.getTxData lowerBound encoder limit = .ok turn) :
    BlockOut stream.httpId turn.stream turn.out ∧
      (stream.midBlock = true → stream.httpState ≠ .halfClosed →
        stream.localWindow.needUpdate = false → GoesOn stream.httpId turn.stream turn.out) := by
  rcases getTxData_phases sent with ⟨same, out⟩ | ⟨half, large, headers, phase, rest⟩
  · rcases out with out | ⟨half, out⟩
    · rw [out]
      refine ⟨.closed fun _ member => (nomatch member), fun middle _ _ => .inl ⟨rfl, ?_⟩⟩
      exact (midBlock_congr same).trans middle
    · rw [out]
      refine ⟨.closed fun frame member => ?_, fun _ unclosed => absurd half unclosed⟩
      rw [List.mem_singleton.mp member]
      exact leavesOpen_of_type nofun nofun
  · obtain ⟨blocks, closed, goesOn⟩ := headerPhase_blocks phase
    rcases rest with ⟨same, out⟩ | ⟨argument, after, frame, used, _, none, filled, _, out⟩
    · rw [out]
      refine ⟨blocks.congr (midBlock_congr same), fun middle _ quiet => ?_⟩
      exact (goesOn middle quiet).imp_left (And.imp_right (midBlock_congr same).trans)
    · rw [out]
      refine ⟨.closed (List.forall_mem_append.mpr ⟨closed none, ?_⟩), fun middle _ quiet => .inr ?_⟩
      · intro other member
        rw [List.mem_singleton.mp member]
        have type := (prepareBody_frame filled).1
        exact leavesOpen_of_type (type ▸ nofun) (type ▸ nofun)
      · rcases goesOn middle quiet with ⟨_, left⟩ | ⟨first, later, first_eq, type, own⟩
        · exact absurd none (of_decide_eq_true (Bool.and_eq_true_iff.mp left).2)
        · exact ⟨first, later ++ [frame], congrArg (· ++ [frame]) first_eq, type, own⟩

end Stream

/-! ## The wire -/

private theorem openBlock_of_closed {ptr : Nat} {frame : OutFrame}
    (closed : frame.leavesOpen = false) :
    (Tx.frame ptr frame).openBlock = none := by
  rw [Tx.openBlock, closed]
  rfl

private theorem contiguous_of_closed {out : List Tx} (closed : ∀ tx ∈ out, tx.openBlock = none) :
    Contiguous out := by
  induction out with
  | nil => exact .nil
  | cons tx out ih =>
      refine (ih fun other member => closed other (List.mem_cons_of_mem _ member)).cons ?_
      intro _ _ id opened
      rw [closed tx List.mem_cons_self] at opened
      cases opened

/-- The frames of a turn follow each other, and leave open only the block of the stream
they are of. -/
theorem Stream.BlockOut.wire {id ptr : Nat} {after : Stream} {out : List OutFrame}
    (blocks : Stream.BlockOut id after out) :
    Contiguous (out.map (Tx.frame ptr)) ∧
      ∀ tx ∈ (out.map (Tx.frame ptr)).getLast?, ∀ opened ∈ tx.openBlock,
        opened = id ∧ after.midBlock = true := by
  have none {out : List OutFrame} (closed : ∀ frame ∈ out, frame.leavesOpen = false) :
      ∀ tx ∈ out.map (Tx.frame ptr), tx.openBlock = none :=
    List.forall_mem_map.mpr fun frame member => openBlock_of_closed (closed frame member)
  cases blocks with
  | closed closed =>
      refine ⟨contiguous_of_closed (none closed), fun tx last opened member => ?_⟩
      rw [none closed tx (List.mem_of_getLast? last)] at member
      cases member
  | @opened before frame closed own middle =>
      rw [List.map_append]
      refine ⟨(contiguous_of_closed (none closed)).append (.singleton _) ?_, ?_⟩
      · intro tx last _ _ opened member
        rw [none closed tx (List.mem_of_getLast? last)] at member
        cases member
      · intro tx last opened member
        rw [List.map_singleton, List.getLast?_concat] at last
        cases last
        rw [Tx.openBlock] at member
        split at member
        · cases member
          exact ⟨own, middle⟩
        · cases member

/-- What holds of the wire: header blocks are contiguous, and a block that is open has
its stream in the middle of it. -/
structure Wire (size : Nat) (heap : Nat → Stream) (emitted : List Tx) : Prop where
  contiguous : Contiguous emitted
  open_middle : ∀ tx ∈ emitted.getLast?, ∀ id ∈ tx.openBlock,
    ∃ ptr < size, (heap ptr).midBlock = true ∧ (heap ptr).httpId = id

/-- A turn of a stream, when every stream in the middle of its block is the one that has
the turn and goes on with it. -/
theorem Wire.turn {size ptr : Nat} {heap : Nat → Stream} {emitted : List Tx} {after : Stream}
    {out : List OutFrame} (wire : Wire size heap emitted) (inside : ptr < size)
    (blocks : Stream.BlockOut (heap ptr).httpId after out)
    (same : after.httpId = (heap ptr).httpId)
    (goesOn : ∀ other < size, (heap other).midBlock = true →
      other = ptr ∧ Stream.GoesOn (heap ptr).httpId after out) :
    Wire size (Function.update heap ptr after) (emitted ++ out.map (Tx.frame ptr)) := by
  obtain ⟨chain, last⟩ := @Stream.BlockOut.wire _ ptr _ _ blocks
  have middle (left : after.midBlock = true) : ∃ other < size,
      (Function.update heap ptr after other).midBlock = true ∧
        (Function.update heap ptr after other).httpId = (heap ptr).httpId :=
    ⟨ptr, inside, by rw [Function.update_self]; exact ⟨left, same⟩⟩
  refine ⟨wire.contiguous.append chain ?_, ?_⟩
  · intro tx final next first id opened
    obtain ⟨other, inside, started, rfl⟩ := wire.open_middle tx final id opened
    obtain ⟨rfl, ⟨rfl, _⟩ | ⟨frame, rest, rfl, type, own⟩⟩ := goesOn other inside started
    · cases first
    · cases first
      rw [Tx.continues, decide_eq_true type, decide_eq_true own]
      rfl
  · intro tx final id opened
    rw [List.getLast?_append] at final
    cases out with
    | nil =>
        obtain ⟨other, inside, started, rfl⟩ := wire.open_middle tx final id opened
        obtain ⟨rfl, ⟨_, left⟩ | ⟨_, _, empty, _⟩⟩ := goesOn other inside started
        · exact middle left
        · cases empty
    | cons frame rest =>
        rw [List.map_cons, List.getLast?_cons] at final
        obtain ⟨rfl, left⟩ := last tx (by rw [List.map_cons, List.getLast?_cons]; exact final)
          id opened
        exact middle left

/-- What is sent while no stream is in the middle of its block. -/
theorem Wire.commands {size : Nat} {heap : Nat → Stream} {emitted : List Tx}
    (wire : Wire size heap emitted) {commands : List Bytes}
    (allowed : (∃ ptr < size, (heap ptr).midBlock = true) → commands = []) :
    Wire size heap (emitted ++ commands.map Tx.command) := by
  cases commands with
  | nil =>
      rw [List.map_nil, List.append_nil]
      exact wire
  | cons command commands =>
      have closed : ∀ tx ∈ (command :: commands).map Tx.command, tx.openBlock = none :=
        List.forall_mem_map.mpr fun _ _ => rfl
      refine ⟨wire.contiguous.append (contiguous_of_closed closed) ?_, ?_⟩
      · intro tx final _ _ id opened
        obtain ⟨ptr, inside, started, _⟩ := wire.open_middle tx final id opened
        exact absurd (allowed ⟨ptr, inside, started⟩) (List.cons_ne_nil _ _)
      · intro tx final id opened
        rw [List.getLast?_append, List.map_cons, List.getLast?_cons] at final
        rw [closed tx (List.mem_of_getLast? (by rw [List.map_cons, List.getLast?_cons]
                                                exact final))] at opened
        cases opened

/-- The same streams in the middle of their blocks. -/
theorem Wire.congr {size other : Nat} {heap after : Nat → Stream} {emitted : List Tx}
    (wire : Wire size heap emitted) (larger : size ≤ other)
    (same : ∀ ptr < size, (after ptr).sending = (heap ptr).sending) :
    Wire other after emitted := by
  refine ⟨wire.contiguous, fun tx final id opened => ?_⟩
  obtain ⟨ptr, inside, started, named⟩ := wire.open_middle tx final id opened
  exact ⟨ptr, Nat.lt_of_lt_of_le inside larger,
    (Stream.midBlock_congr (same ptr inside)).trans started,
    (congrArg Stream.Sending.httpId (same ptr inside)).trans named⟩

/-- The stream that has a turn in which it may send. -/
def Round.speaker (limit : Nat) (round : Round) : Option Nat → Option Nat
  | none => none
  | some ptr =>
      let stream := round.heap ptr
      if stream.hasTxData && (stream.httpState = .halfClosed ||
          16 < min (sizeSub limit round.bytesUsed) stream.remoteWindow) then some ptr
      else none

/-- While a stream is in the middle of its header block, it has every turn, and then
neither its end nor a window update to send. -/
def BlockTurn (size limit : Nat) (round : Round) (slot : Option Nat) : Prop :=
  ∀ ptr < size, (round.heap ptr).midBlock = true → ∀ speaker ∈ round.speaker limit slot,
    speaker = ptr ∧ (round.heap ptr).httpState ≠ .halfClosed ∧
      (round.heap ptr).localWindow.needUpdate = false

instance (size limit : Nat) (round : Round) (slot : Option Nat) :
    Decidable (BlockTurn size limit round slot) :=
  Nat.decidableBallLT ..

section Turns

variable {lowerBound : LowerBound} {size limit ptr : Nat} {round next : Round} {emitted : List Tx}

/-- A stream that has a turn and may not send stays as it is. -/
theorem Round.speaker_none {turn : Turn} (ready : (round.heap ptr).hasTxData = true)
    (silent : round.speaker limit (some ptr) = none)
    (sent : (round.heap ptr).getTxData lowerBound round.encoder
      (sizeSub limit round.bytesUsed) = .ok turn) :
    turn.stream.sending = (round.heap ptr).sending ∧ turn.out = [] := by
  simp only [speaker, ready, Bool.true_and] at silent
  split at silent
  · cases silent
  · rename_i blocked
    rw [Bool.or_eq_true, decide_eq_true_eq, decide_eq_true_eq, not_or] at blocked
    rcases Stream.getTxData_spec sent with ⟨half, _⟩ | ⟨_, _, rfl⟩ | ⟨_, large, _⟩
    · exact absurd half blocked.1
    · exact ⟨rfl, rfl⟩
    · exact absurd large blocked.2

private theorem Round.speaker_some {speaker : Nat}
    (speaks : round.speaker limit (some ptr) = some speaker) :
    speaker = ptr := by
  unfold Round.speaker at speaks
  split at speaks
  · cases speaks
  · rename_i slot
    cases slot
    simp only at speaks
    split at speaks
    · cases speaks
      rfl
    · cases speaks

/-- A turn in which a stream that is in the middle of its block goes on with it. -/
theorem Wire.sent {turn : Turn} (wire : Wire size round.heap emitted) (inside : ptr < size)
    (guarded : BlockTurn size limit round (some ptr))
    (ready : (round.heap ptr).hasTxData = true)
    (sent : (round.heap ptr).getTxData lowerBound round.encoder
      (sizeSub limit round.bytesUsed) = .ok turn) :
    Wire size (Function.update round.heap ptr turn.stream)
      (emitted ++ turn.out.map (Tx.frame ptr)) := by
  cases speaks : round.speaker limit (some ptr) with
  | none =>
      obtain ⟨same, out⟩ := Round.speaker_none ready speaks sent
      rw [out, List.map_nil, List.append_nil]
      exact wire.congr (Nat.le_refl _) fun other _ =>
        StreamRegistry.update_same Stream.sending same other
  | some speaker =>
      obtain rfl := Round.speaker_some speaks
      obtain ⟨blocks, goesOn⟩ := Stream.getTxData_blocks sent
      refine wire.turn inside blocks (Stream.getTxData_httpId sent) fun other inside middle => ?_
      obtain ⟨rfl, half, quiet⟩ := guarded other inside middle speaker speaks
      exact ⟨rfl, goesOn middle half quiet⟩

private theorem Wire.served {slot : Option Nat} {out : List (Nat × OutFrame)}
    (wire : Wire size round.heap emitted) (inside : ∀ ptr ∈ slot, ptr < size)
    (guarded : BlockTurn size limit round slot)
    (served : StreamRegistry.Served lowerBound limit round slot next out) :
    Wire size next.heap (emitted ++ Client.streamTx out) := by
  cases served with
  | skipped _ => exact (List.append_nil emitted).symm ▸ wire
  | @again ptr turn ready sent checked =>
      rw [Client.streamTx, List.map_map]
      exact (wire.sent (inside ptr rfl) guarded ready sent).congr (Nat.le_refl _) fun other _ =>
        StreamRegistry.update_congr Stream.sending turn.stream.marked_sending other
  | @once ptr turn ready sent checked =>
      rw [Client.streamTx, List.map_map]
      exact wire.sent (inside ptr rfl) guarded ready sent

end Turns

namespace Client

/-- A step that does not tear a header block apart: while a stream is in the middle of
its block, `get_tx_data` is called with no command in the queue and gives the turns in
which anything may be sent to this stream, which has neither its end nor a window update
to send. -/
def BlocksGuarded (lowerBound : LowerBound) (history : Machine.History Client Tx)
    (event : Event) : Prop :=
  event.sends = true →
    (∀ ptr < history.state.registry.size, (history.state.registry.heap ptr).midBlock = true →
      history.state.txCommandQueue = []) ∧
    history.state.Turns lowerBound fun round slot =>
      BlockTurn history.state.registry.size history.state.streamLimit round.state slot

instance (lowerBound : LowerBound) (history : Machine.History Client Tx) (event : Event) :
    Decidable (BlocksGuarded lowerBound history event) :=
  inferInstanceAs (Decidable (_ → _))

variable {lowerBound : LowerBound} {history next : Machine.History Client Tx} {event : Event}

/-- An event other than sending leaves the blocks as they are. -/
theorem Changed.wire {client : Client} {registry : StreamRegistry} {emitted : List Tx}
    (changed : Changed client event registry)
    (wire : Wire client.registry.size client.registry.heap emitted) :
    Wire registry.size registry.heap emitted := by
  cases changed with
  | same => exact wire
  | added connected =>
      refine wire.congr (Nat.le_succ _) fun ptr inside => ?_
      simp only [StreamRegistry.addStream, Function.update_of_ne (Nat.ne_of_lt inside)]
  | @timeout ptr =>
      exact wire.congr (Nat.le_refl _) fun other _ => StreamRegistry.update_same Stream.sending
        (Stream.receive_sending _ .timeout) other
  | @reset ec =>
      refine wire.congr (Nat.le_refl _) fun ptr _ => ?_
      simp only [StreamRegistry.reset]
      split
      · exact Stream.receive_sending _ (.cleanup ec)
      · rfl
  | erased _ _ _ _ =>
      exact wire.congr (Nat.le_refl _) fun other _ => StreamRegistry.update_same Stream.sending
        (Stream.receive_sending _ _) other
  | received _ _ _ _ =>
      exact wire.congr (Nat.le_refl _) fun other _ => StreamRegistry.update_same Stream.sending
        (Stream.receive_sending _ _) other
  | enqueued _ _ _ _ =>
      exact wire.congr (Nat.le_refl _) fun other _ => StreamRegistry.update_same Stream.sending
        ((Stream.marked_sending _).trans (Stream.receive_sending _ _)) other

/-- The wire of a client, with its queue. -/
structure WireKept (history : Machine.History Client Tx) : Prop where
  scheduled : history.state.registry.Scheduled
  wire : Wire history.state.registry.size history.state.registry.heap history.emitted

/-- A call of `get_tx_data` that does not tear a header block apart. -/
theorem WireKept.sent {after : Client} {out : List Tx} (kept : WireKept history)
    (guarded : BlocksGuarded lowerBound history .getTxData)
    (sent : history.state.getTxData lowerBound = .ok (after, out)) :
    Wire after.registry.size after.registry.heap (history.emitted ++ out) := by
  obtain ⟨quiet, turns⟩ := guarded rfl
  obtain ⟨commands, unsent, rest⟩ := getTxData_spec sent
  have first : Wire history.state.registry.size history.state.registry.heap
      (history.emitted ++ commands.map Tx.command) := by
    refine kept.wire.commands ?_
    rintro ⟨ptr, inside, middle⟩
    exact unsent (quiet ptr inside middle)
  rcases rest with ⟨same, rfl⟩ | ⟨serves, final, ran, same, rfl⟩
  · rw [same]
    exact first
  · rw [same, ← List.append_assoc]
    refine (@run_turns lowerBound _ _ _ (fun round _ =>
      Wire history.state.registry.size round.state.heap
        (history.emitted ++ commands.map Tx.command ++ streamTx round.emitted))
      final _ kept.scheduled ?_ ?_ (turns serves) ran).2
    · intro round slot remaining next out rounds wire guarded served
      rw [streamTx, List.map_append, ← List.append_assoc]
      refine wire.served (fun ptr member => ?_) guarded served
      cases member
      refine (rounds.marked ptr (List.mem_append_right _ ?_)).1
      rw [List.reduceOption_cons_of_some]
      exact List.mem_cons_self
    · exact (List.append_nil _).symm ▸ first

private theorem WireKept.advance (kept : WireKept history)
    (guarded : BlocksGuarded lowerBound history event)
    (taken : (machine lowerBound).advance history event = .ok next) : WireKept next := by
  obtain ⟨state, out, stepped, rfl⟩ := Machine.advance_eq_ok taken
  refine ⟨scheduled_step kept.scheduled stepped, ?_⟩
  rcases step_cases stepped with ⟨rfl, sent⟩ | ⟨_, rfl, changed⟩
  · exact kept.sent guarded sent
  · rw [List.append_nil]
    exact changed.wire kept.wire

/-- **Header blocks are contiguous** on the wire of a client whose steps tear none apart. -/
theorem headerBlocks_contiguous (lowerBound : LowerBound) (events : List Event)
    (last : Machine.History Client Tx)
    (guarded : (machine lowerBound).Along (BlocksGuarded lowerBound) start events)
    (ran : (machine lowerBound).run start events = .ok last) : Contiguous last.emitted := by
  have fresh : WireKept start :=
    ⟨StreamRegistry.Scheduled.create, .nil, fun _ final => nomatch final⟩
  exact (Machine.run_invariant (fun _ _ _ kept guarded taken => kept.advance guarded taken)
    fresh guarded ran).wire.contiguous

/-- A field that does not fit in a frame of the small window. -/
def longField : HeaderField := ⟨ascii "custom", List.replicate 80 0x78, .default, by decide⟩

/-- A request whose header block is finished in a second call. -/
def longBlock : List Event :=
  smallWindow ++ [.send (sampleRequest .get [longField] []), .getTxData,
    frameRead 8 0 1 [0, 0, 0, 200], .getTxData]

/-- The block of a long request is finished by the next call. -/
theorem headerBlocks_contiguous_long :
    ∃ last, (machine .linear).run start longBlock = .ok last ∧
      last.emitted.countP (fun tx => tx.openBlock.isSome) = 1 ∧ Contiguous last.emitted := by
  have passes : ((machine .linear).run start longBlock).toOption.any (fun last => decide (
      (machine .linear).Along (BlocksGuarded .linear) start longBlock ∧
      last.emitted.countP (fun tx => tx.openBlock.isSome) = 1)) = true := by
    decide +kernel
  obtain ⟨last, ran, checks⟩ := Outcome.exists_ok_of_any passes
  obtain ⟨guarded, count⟩ := of_decide_eq_true checks
  exact ⟨last, ran, count, headerBlocks_contiguous .linear _ last guarded ran⟩

/-- A command that is queued while the block is open comes before the end of the block. -/
theorem headerBlocks_command_between :
    ∃ last, (machine .linear).run start (smallWindow ++
        [.send (sampleRequest .get [longField] []), .getTxData,
          .ping [0, 0, 0, 0, 0, 0, 0, 0], frameRead 8 0 1 [0, 0, 0, 200], .getTxData]) = .ok last ∧
      ¬ Contiguous last.emitted := by
  have passes : ((machine .linear).run start (smallWindow ++
      [.send (sampleRequest .get [longField] []), .getTxData,
        .ping [0, 0, 0, 0, 0, 0, 0, 0], frameRead 8 0 1 [0, 0, 0, 200],
        .getTxData])).toOption.any (fun last => decide (¬ Contiguous last.emitted)) = true := by
    decide +kernel
  obtain ⟨last, ran, checks⟩ := Outcome.exists_ok_of_any passes
  exact ⟨last, ran, of_decide_eq_true checks⟩

end Client

end H2pp.Http2

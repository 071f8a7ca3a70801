import H2pp.Http2.Multiplexing
import H2pp.Http2.ReceiveWindows
import Mathlib.Tactic.IntervalCases

/-! # Stream ids

`get_next_stream_id` counts through the odd numbers, and a frame carries the id of its
stream in network byte order. As long as the ids do not run out, a peer can tell from the
id of a frame which request it belongs to.
-/

namespace H2pp.Http2

open Utils Hpack

/-- The bytes of a number in the other byte order. -/
theorem nativeToBig32_byte {x : Nat} (small : x < 2 ^ 32) {index : Nat} (inside : index < 4) :
    nativeToBig32 x / 2 ^ (8 * index) % 2 ^ 8 = x / 2 ^ (24 - 8 * index) % 2 ^ 8 := by
  have odd : ∀ bit < 32, Nat.testBit 0xff00ff00 bit = decide (bit / 8 % 2 = 1) := by decide
  have even : ∀ bit < 32, Nat.testBit 0x00ff00ff bit = decide (bit / 8 % 2 = 0) := by decide
  have high : ∀ bit, 32 ≤ bit → x.testBit bit = false := fun bit large =>
    Nat.testBit_lt_two_pow (Nat.lt_of_lt_of_le small (Nat.pow_le_pow_right (by decide) large))
  apply Nat.eq_of_testBit_eq
  intro bit
  rw [Nat.testBit_mod_two_pow, Nat.testBit_mod_two_pow, Nat.testBit_div_two_pow,
    Nat.testBit_div_two_pow]
  by_cases low : bit < 8
  · simp only [nativeToBig32, Nat.testBit_or, Nat.testBit_and, Nat.testBit_shiftLeft,
      Nat.testBit_shiftRight, Nat.testBit_mod_two_pow, odd (bit + 8 * index) (by omega),
      even (bit + 8 * index) (by omega)]
    interval_cases index <;> interval_cases bit <;> simp [high]
  · simp only [low, decide_false, Bool.false_and]

/-- The stream identifier in a frame header: 31 bits in network byte order. -/
def Wire.streamId (frame : Bytes) : Nat :=
  ((frame.getD 5 0).toNat * 2 ^ 24 + (frame.getD 6 0).toNat * 2 ^ 16 +
    (frame.getD 7 0).toNat * 2 ^ 8 + (frame.getD 8 0).toNat) % 2 ^ 31

/-- A frame with an id that was brought into network byte order. -/
theorem Wire.streamId_bytes {frame : OutFrame} {id : Nat} (small : id < 2 ^ 32)
    (carried : frame.streamId = nativeToBig32 id) : streamId frame.bytes = id % 2 ^ 31 := by
  have first : frame.bytes.getD 5 0 = UInt8.ofNat frame.streamId := rfl
  have second : frame.bytes.getD 6 0 = UInt8.ofNat (frame.streamId / 2 ^ 8) := rfl
  have third : frame.bytes.getD 7 0 = UInt8.ofNat (frame.streamId / 2 ^ 16) := rfl
  have fourth : frame.bytes.getD 8 0 = UInt8.ofNat (frame.streamId / 2 ^ 24) := rfl
  have lowest : nativeToBig32 id % 2 ^ 8 = id / 2 ^ 24 % 2 ^ 8 := by
    rw [← Nat.div_one (nativeToBig32 id)]
    exact nativeToBig32_byte small (show 0 < 4 by decide)
  have low : nativeToBig32 id / 2 ^ 8 % 2 ^ 8 = id / 2 ^ 16 % 2 ^ 8 :=
    nativeToBig32_byte small (show 1 < 4 by decide)
  have high : nativeToBig32 id / 2 ^ 16 % 2 ^ 8 = id / 2 ^ 8 % 2 ^ 8 :=
    nativeToBig32_byte small (show 2 < 4 by decide)
  have highest : nativeToBig32 id / 2 ^ 24 % 2 ^ 8 = id % 2 ^ 8 := by
    have read := nativeToBig32_byte small (show 3 < 4 by decide)
    rwa [Nat.mul_succ, Nat.sub_self, Nat.pow_zero, Nat.div_one] at read
  rw [streamId, first, second, third, fourth, carried]
  simp only [UInt8.toNat_ofNat', lowest, low, high, highest]
  omega

namespace Stream

variable {lowerBound : LowerBound} {stream : Stream} {encoder : Encoder} {limit : Nat} {turn : Turn}

private theorem update_streamId (window : DummyWindow) (id : Nat) :
    ∀ frame ∈ (window.update id).1.toList, frame.streamId = id := by
  intro frame member
  unfold DummyWindow.update at member
  split at member
  · cases List.mem_singleton.mp member
    rfl
  · cases member

private theorem prepared_streamId
    (prepared : HeadersPrepared lowerBound stream encoder limit turn) :
    ∀ frame ∈ turn.out, frame.streamId = stream.httpId := by
  cases prepared with
  | nothing => exact List.forall_mem_nil _
  | headers => exact List.forall_mem_singleton.mpr rfl
  | continuation => exact List.forall_mem_singleton.mpr rfl
  | closing => exact List.forall_mem_cons.mpr ⟨rfl, List.forall_mem_singleton.mpr rfl⟩

private theorem headerPhase_streamId
    (sent : stream.headerPhase lowerBound encoder limit = .ok turn) :
    turn.stream.httpId = stream.httpId ∧ ∀ frame ∈ turn.out, frame.streamId = stream.httpId := by
  refine ⟨congrArg Prod.fst (headerPhase_status sent), ?_⟩
  obtain ⟨headers, prepared, _, _, out⟩ := headerPhase_spec sent
  rw [out]
  refine List.forall_mem_append.mpr ⟨update_streamId _ _, ?_⟩
  rcases prepared with ⟨_, prepared⟩ | ⟨_, rfl⟩
  · exact @prepared_streamId lowerBound stream.opened _ _ _ prepared
  · exact List.forall_mem_nil _

/-- All frames of a stream carry its id. -/
theorem getTxData_streamId (sent : stream.getTxData lowerBound encoder limit = .ok turn) :
    ∀ frame ∈ turn.out, frame.streamId = stream.httpId := by
  rcases getTxData_spec sent with
    ⟨_, rfl⟩ | ⟨_, _, rfl⟩ | ⟨_, _, headers, body, first, second, rfl⟩
  · exact List.forall_mem_singleton.mpr rfl
  · exact List.forall_mem_nil _
  · obtain ⟨id, carried⟩ := headerPhase_streamId first
    unfold bodyPhase at second
    split at second
    · obtain ⟨⟨after, frame, used⟩, filled, same⟩ := Outcome.bind_eq_ok.mp second
      cases same
      exact List.forall_mem_append.mpr ⟨carried,
        List.forall_mem_singleton.mpr ((prepareBody_frame filled).2.trans id)⟩
    · cases second
      exact carried

/-- In a run of a stream its id stays, and all its frames carry it. -/
theorem run_streamId {events : List Event} {last : Machine.History Stream OutFrame}
    (ran : (machine lowerBound).run ⟨stream, []⟩ events = .ok last) :
    last.state.httpId = stream.httpId ∧ ∀ frame ∈ last.emitted, frame.streamId = stream.httpId := by
  refine @Machine.run_kept _ _ _ _ _ (fun history => history.state.httpId = stream.httpId ∧
    ∀ frame ∈ history.emitted, frame.streamId = stream.httpId) ?_ _ _ _ ?_ ran
  · intro history event next kept taken
    obtain ⟨state, out, stepped, rfl⟩ := Machine.advance_eq_ok taken
    cases event with
    | send encoder limit =>
        obtain ⟨turn, sent, same⟩ := Outcome.bind_eq_ok.mp stepped
        cases same
        refine ⟨(getTxData_httpId sent).trans kept.1, List.forall_mem_append.mpr ⟨kept.2, ?_⟩⟩
        rw [← kept.1]
        exact getTxData_streamId sent
    | receive received =>
        cases stepped
        refine ⟨(receive_httpId _ _).trans kept.1, ?_⟩
        rw [List.append_nil]
        exact kept.2
  · exact ⟨rfl, List.forall_mem_nil _⟩

end Stream

namespace Client

variable {lowerBound : LowerBound} {client next : Client} {event : Event}

/-! ## The count of the streams -/

/-- Only the opening of a stream counts. -/
theorem react_clientIdOrder (opens : ∀ request, event ≠ .send request)
    (reacted : client.react event = .ok next) : next.clientIdOrder = client.clientIdOrder := by
  refine (react_part (·.clientIdOrder) (fun _ _ => rfl) reacted).trans ?_
  cases event with
  | send request => exact absurd rfl (opens request)
  | _ => rfl

/-! ## The ids of the streams -/

/-- The id of a stream: the odd numbers in network byte order. -/
def idAt (ptr : Nat) : Nat := nativeToBig32 ((2 * ptr + 1) % 2 ^ 32)

/-- Different streams have different ids, while these last. -/
theorem idAt_injective {first second : Nat} (small : first < 2 ^ 31) (short : second < 2 ^ 31)
    (same : idAt first = idAt second) : first = second := by
  have byte {index : Nat} (inside : index < 4) :
      (2 * first + 1) % 2 ^ 32 / 2 ^ (24 - 8 * index) % 2 ^ 8 =
        (2 * second + 1) % 2 ^ 32 / 2 ^ (24 - 8 * index) % 2 ^ 8 := by
    rw [← nativeToBig32_byte (Nat.mod_lt _ (by decide)) inside,
      ← nativeToBig32_byte (Nat.mod_lt _ (by decide)) inside]
    exact congrArg (fun id => id / 2 ^ (8 * index) % 2 ^ 8) same
  have lowest := byte (show 0 < 4 by decide)
  have low := byte (show 1 < 4 by decide)
  have high := byte (show 2 < 4 by decide)
  have highest := byte (show 3 < 4 by decide)
  norm_num at lowest low high highest
  omega

/-- What holds of the ids: the streams have the odd numbers, in the order in which they were
opened. -/
structure Enumerated (history : Machine.History (Client × Journal) Tx) : Prop where
  next : history.state.1.clientIdOrder = (history.state.1.registry.size + 1) % 2 ^ 32
  created : ∀ ptr created, history.state.2.opened[ptr]? = some created →
    ∃ remoteSize localSize request,
      created = Stream.create (idAt ptr) remoteSize localSize request

/-- The next id follows from the number of streams so far. -/
theorem nextStreamId_eq {size : Nat} (next : client.clientIdOrder = (size + 1) % 2 ^ 32) :
    client.nextStreamId = idAt size := by
  have same : ((size + 1) % 2 ^ 32 * 2 + 2 ^ 32 - 1) % 2 ^ 32 = (2 * size + 1) % 2 ^ 32 := by omega
  rw [nextStreamId, next, same, idAt]

/-- **A step.** The ids go on. -/
theorem Enumerated.advance {history after : Machine.History (Client × Journal) Tx}
    (enumerated : Enumerated history)
    (opened : history.state.2.opened.length = history.state.1.registry.size)
    (scheduled : history.state.1.registry.Scheduled)
    (taken : (journaled lowerBound).advance history event = .ok after) : Enumerated after := by
  obtain ⟨state, out, stepped, rfl⟩ := Machine.observed_advance taken
  rcases step_react stepped with ⟨rfl, sent⟩ | ⟨sends, rfl, reacted⟩
  · have order : state.clientIdOrder = history.state.1.clientIdOrder :=
      congrArg Core.clientIdOrder (getTxData_core sent)
    refine ⟨?_, enumerated.created⟩
    simp only [order, (getTxData_evolves scheduled sent).1]
    exact enumerated.next
  · by_cases opens : ∃ request, event = .send request
    · obtain ⟨request, rfl⟩ := opens
      cases connected : history.state.1.isConnected with
      | false =>
          cases reacted
          have refused : history.state.1.called (history.state.1.initiateSend request) =
              history.state.1 := by
            simp only [initiateSend, connected, Bool.not_false, ↓reduceIte, called]
          refine ⟨?_, ?_⟩
          · simp only [refused]
            exact enumerated.next
          · simp only [noted, connected, Bool.false_eq_true, ↓reduceIte]
            exact enumerated.created
      | true =>
          cases reacted
          refine ⟨?_, ?_⟩
          · simp only [initiateSend, connected, Bool.not_true, Bool.false_eq_true, ↓reduceIte,
              called, StreamRegistry.addStream, enumerated.next]
            omega
          · intro ptr created found
            simp only [noted, connected, ↓reduceIte] at found
            rcases Nat.lt_or_ge ptr history.state.2.opened.length with inside | outside
            · rw [List.getElem?_append_left inside] at found
              exact enumerated.created ptr created found
            · rw [List.getElem?_append_right outside] at found
              obtain ⟨last, rfl⟩ := List.getElem?_eq_some_iff.mp found
              obtain rfl : ptr = history.state.1.registry.size := by
                rw [List.length_singleton] at last
                omega
              rw [List.getElem_singleton, newStream, nextStreamId_eq enumerated.next]
              exact ⟨_, _, _, rfl⟩
    · have closed := fun request same => opens ⟨request, same⟩
      refine ⟨?_, ?_⟩
      · simp only [react_clientIdOrder closed reacted, react_size sends closed reacted]
        exact enumerated.next
      · have note : (history.state.1.noted event history.state.2).opened =
            history.state.2.opened := by
          cases event with
          | send request => exact absurd rfl (closed request)
          | _ => rfl
        simp only [note]
        exact enumerated.created

/-- A client without streams. -/
theorem Enumerated.unwritten (empty : client.registry = .create)
    (first : client.clientIdOrder = 1) : Enumerated client.unwritten := by
  refine ⟨?_, fun ptr created found => by cases found⟩
  simp only [Client.unwritten, first, empty]
  rfl

/-- A run of a new client, with its journal. -/
theorem enumerated_of_run {events : List Event} {last : Machine.History Client Tx}
    (empty : client.registry = .create) (first : client.clientIdOrder = 1)
    (ran : (machine lowerBound).run ⟨client, []⟩ events = .ok last) :
    ∃ journal, (journaled lowerBound).run client.unwritten events =
        .ok ⟨(last.state, journal), last.emitted⟩ ∧
      Multiplexed lowerBound ⟨(last.state, journal), last.emitted⟩ ∧
      Enumerated ⟨(last.state, journal), last.emitted⟩ := by
  obtain ⟨journal, observed, _⟩ := multiplexed_of_run empty ran
  refine ⟨journal, observed, ?_⟩
  refine @Machine.run_kept _ _ _ _ _ (fun history => Multiplexed lowerBound history ∧
    Enumerated history) ?_ _ _ _ ⟨.unwritten empty, .unwritten empty first⟩ observed
  intro history event next kept taken
  exact ⟨kept.1.advance taken, kept.2.advance kept.1.opened kept.1.scheduled taken⟩

/-- Every stream has the id of its place, and so have the frames that are sent for it. -/
theorem Enumerated.identified {history : Machine.History (Client × Journal) Tx}
    (enumerated : Enumerated history) (multiplexed : Multiplexed lowerBound history) {ptr : Nat}
    (inside : ptr < history.state.1.registry.size) :
    (history.state.1.registry.heap ptr).httpId = idAt ptr ∧
      ∀ frame ∈ framesOf ptr history.emitted, frame.streamId = idAt ptr := by
  obtain ⟨created, found⟩ : ∃ created, history.state.2.opened[ptr]? = some created :=
    ⟨_, List.getElem?_eq_getElem (multiplexed.opened ▸ inside)⟩
  obtain ⟨remoteSize, localSize, request, rfl⟩ := enumerated.created ptr created found
  obtain ⟨seen, takes, _, _⟩ := multiplexed.alone ptr _ found
  exact Stream.run_streamId (takes [])

/-- The frame that was sent, if it is one of a stream. -/
def streamFrame : Tx → Option OutFrame
  | .command _ => none
  | .frame _ frame => some frame

/-- The frames of all streams, in the order in which they were sent. -/
def streamFrames (sent : List Tx) : List OutFrame := sent.filterMap streamFrame

/-- **Demultiplexing.** While the ids last, the frames that were sent for a request are
those that carry its number on the wire, whatever else was sent in between: the first
request has number 1, the next one number 3 and so on. -/
theorem frames_demultiplexed (lowerBound : LowerBound) (client : Client) (events : List Event)
    (last : Machine.History Client Tx) (empty : client.registry = .create)
    (first : client.clientIdOrder = 1)
    (ran : (machine lowerBound).run ⟨client, []⟩ events = .ok last)
    (few : last.state.registry.size ≤ 2 ^ 30) (ptr : Nat) (inside : ptr < 2 ^ 30) :
    framesOf ptr last.emitted =
      (streamFrames last.emitted).filter fun frame =>
        Wire.streamId frame.bytes = 2 * ptr + 1 := by
  obtain ⟨journal, _, multiplexed, enumerated⟩ := enumerated_of_run empty first ran
  have carried : ∀ other frame, Tx.frame other frame ∈ last.emitted →
      (Wire.streamId frame.bytes = 2 * ptr + 1 ↔ other = ptr) := by
    intro other frame sent
    have member := mem_framesOf.mpr sent
    rcases Nat.lt_or_ge other last.state.registry.size with opened | unborn
    · have id := (enumerated.identified multiplexed opened).2 frame member
      rw [Wire.streamId_bytes (Nat.mod_lt _ (by decide)) id]
      omega
    · rw [multiplexed.unborn other unborn] at member
      cases member
  generalize last.emitted = sent at carried ⊢
  induction sent with
  | nil => rfl
  | cons tx sent ih =>
      have rest := ih fun other frame later => carried other frame (List.mem_cons_of_mem _ later)
      cases tx with
      | command bytes => exact rest
      | frame other frame =>
          have own := carried other frame List.mem_cons_self
          have listed : streamFrames (.frame other frame :: sent) =
              frame :: streamFrames sent := rfl
          rw [framesOf_cons, listed, List.filter_cons, rest]
          simp only [own, decide_eq_true_eq]

/-- The second of two requests. -/
theorem frames_demultiplexed_interleaved :
    ∃ last, (machine .linear).run start interleaved = .ok last ∧
      (streamFrames last.emitted).map (fun frame => Wire.streamId frame.bytes) = [1, 3, 3, 1] ∧
      framesOf 1 last.emitted =
        (streamFrames last.emitted).filter fun frame => Wire.streamId frame.bytes = 2 * 1 + 1 := by
  have passes : ((machine .linear).run start interleaved).toOption.any (fun last => decide (
      last.state.registry.size = 2 ∧
      (streamFrames last.emitted).map (fun frame => Wire.streamId frame.bytes) =
        [1, 3, 3, 1])) = true := by
    decide +kernel
  obtain ⟨last, ran, checks⟩ := Outcome.exists_ok_of_any passes
  obtain ⟨size, numbers⟩ := of_decide_eq_true checks
  exact ⟨last, ran, numbers, frames_demultiplexed .linear create interleaved last rfl rfl ran
    (by rw [size]; decide) 1 (by decide)⟩

end Client

end H2pp.Http2

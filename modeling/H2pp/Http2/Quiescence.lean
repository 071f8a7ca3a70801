import H2pp.Http2.Accounting
import H2pp.Http2.Delivery
import H2pp.Http2.EmptyRounds
import H2pp.Http2.Queue

/-! # The end of the write loop

After every completed write `on_data_write` calls `init_write` again, so the loop goes on as
long as `get_tx_data` returns something. Every round that returns something takes commands
from the queue or work from a stream, so without anything new the loop comes to its end. The
streams that then still have something to send are held back by a window, or have a header
field that does not fit into a frame.
-/

namespace H2pp.Http2

open Utils Hpack

namespace DummyWindow

/-- What never changes in a window: when it is updated. -/
theorem update_triggerSize (window : DummyWindow) (httpId : Nat) :
    (window.update httpId).2.triggerSize = window.triggerSize := by
  rcases window.update_cases httpId with ⟨_, same⟩ | same <;> rw [same]

/-- After an update none is due. -/
theorem needUpdate_update {window : DummyWindow} (trigger : window.triggerSize ≠ 0)
    (httpId : Nat) : (window.update httpId).2.needUpdate = false := by
  rcases window.update_cases httpId with ⟨early, same⟩ | same
  · rw [same, needUpdate_eq]
    exact decide_eq_false (Nat.not_le.mpr early)
  · rw [same]
    have zero : window.maxSize - window.maxSize = 0 := by grind
    simp only [needUpdate, zero, ge_iff_le, decide_eq_false_iff_not]
    intro small
    apply trigger
    grind

end DummyWindow

namespace Stream

variable {lowerBound : LowerBound} {stream : Stream} {encoder : Encoder} {limit : Nat} {turn : Turn}

/-! ## The work of a stream -/

/-- The frames a stream has to send that are not about its request: RST_STREAM and an update
of its window. -/
def signals (stream : Stream) : Nat :=
  (if stream.httpState = .halfClosed then 1 else 0) +
    (if stream.localWindow.needUpdate then 1 else 0)

/-- What a stream has to send: its signals, header fields, and slices and bytes of the
body. -/
def work (stream : Stream) : Nat :=
  stream.signals + stream.request.headerList.length + stream.request.bodyList.length +
    stream.unsent.length

/-- `prepare_headers` sends nothing, or at least one field. -/
theorem prepared_work (listed : stream.request.headerList ≠ [])
    (prepared : HeadersPrepared lowerBound stream encoder limit turn) :
    min 1 turn.out.length + turn.stream.work ≤ stream.work := by
  have fewer {count : Nat} (some : count ≠ 0) :
      (stream.request.commitHeaders count).headerList.length + 1 ≤
        stream.request.headerList.length := by
    have positive := List.length_pos_iff.mpr listed
    rw [Request.commitHeaders, List.length_drop]
    omega
  cases prepared with
  | nothing encoded => exact Nat.le_of_eq (Nat.zero_add _)
  | headers encoded some first =>
      have less := fewer some
      simp only [work, signals, unsent, Request.commitHeaders, List.length_cons] at less ⊢
      omega
  | continuation encoded some later more =>
      have less := fewer some
      simp only [work, signals, unsent, Request.commitHeaders, List.length_cons] at less ⊢
      omega
  | closing encoded some later all bodyless =>
      have less := fewer some
      simp only [work, signals, unsent, Request.commitHeaders, List.length_cons] at less ⊢
      omega

/-- An update of the window is sent once. -/
theorem opened_work (trigger : stream.localWindow.triggerSize ≠ 0) :
    (stream.localWindow.update stream.httpId).1.toList.length + stream.opened.work ≤
      stream.work := by
  have settled := DummyWindow.needUpdate_update trigger stream.httpId
  have frames : (stream.localWindow.update stream.httpId).1.toList.length =
      if stream.localWindow.needUpdate then 1 else 0 := by
    unfold DummyWindow.update
    split <;> rfl
  simp only [work, signals, opened, settled, unsent, frames, reduceCtorEq, Bool.false_eq_true,
    ↓reduceIte]
  omega

private theorem headerPhase_work (trigger : stream.localWindow.triggerSize ≠ 0)
    (sent : stream.headerPhase lowerBound encoder limit = .ok turn) :
    min 1 turn.out.length + turn.stream.work ≤ stream.work := by
  obtain ⟨headers, prepared, same, _, out⟩ := headerPhase_spec sent
  have first := opened_work trigger
  have second : min 1 headers.out.length + headers.stream.work ≤ stream.opened.work := by
    rcases prepared with ⟨listed, prepared⟩ | ⟨_, rfl⟩
    · exact @prepared_work lowerBound stream.opened _ _ _ listed prepared
    · exact Nat.le_of_eq (Nat.zero_add _)
  rw [same, out, List.length_append]
  omega

/-- `prepare_body` takes some of the body, if its size fits into the frame builder. -/
theorem prepareBody_work {after : Stream} {frame : OutFrame} {used : Nat} (sized : stream.Sized)
    (small : stream.request.size < 2 ^ 32) (large : 2 * headerSize ≤ limit)
    (filled : stream.prepareBody limit = .ok (after, frame, used)) : after.work < stream.work := by
  obtain ⟨left, headers⟩ := prepareBody_unsent filled
  obtain ⟨copied, taken, same⟩ := Outcome.bind_eq_ok.mp filled
  cases same
  have length := copyBody_length taken
  have fewer := (copyBody_suffix taken).length_le
  have bytes := congrArg List.length left
  rw [List.length_append] at bytes
  -- an empty payload means that nothing is left of the slice, which is given up then
  have slices : copied.payload.length = 0 →
      copied.bodyList.length < stream.request.bodyList.length := by
    intro empty
    rw [empty] at length
    have inside := sized.inside
    have payload : (stream.dataFrame limit).2 =
        min (sizeSub limit headerSize) (sizeSub stream.request.size stream.sendBodyOffset) %
          2 ^ 32 := rfl
    rw [headerSize] at large
    rw [payload, headerSize, sizeSub_of_le (by omega), sizeSub_of_le inside] at length
    have finished : stream.request.size ≤ stream.sendBodyOffset := by omega
    have within := stream.offsetInside
    rw [Sized] at sized
    cases list : stream.request.bodyList with
    | nil =>
        rw [list] at taken
        cases taken
    | cons slice slices =>
        rw [list, List.headD_cons] at within
        rw [list, List.flatten_cons, List.length_append] at sized
        rw [list, copyBody, payload, headerSize, sizeSub_of_le (by omega),
          sizeSub_of_le inside] at taken
        have zero : min (limit - 9) (stream.request.size - stream.sendBodyOffset) % 2 ^ 32 = 0 := by
          omega
        simp only [zero, Nat.zero_min, Nat.add_zero, Nat.sub_zero, ↓reduceIte] at taken
        rw [dif_neg (by omega)] at taken
        cases taken
        exact Nat.lt_succ_self _
  have signals : (stream.withBody copied).signals = stream.signals := rfl
  have slicesLeft : (stream.withBody copied).request.bodyList = copied.bodyList := rfl
  rw [work, work, signals, headers, slicesLeft]
  simp only at bytes
  omega

/-- A stream whose turns come to an end: its window is not updated all the time, and its
body has the size it says. -/
structure Diligent (stream : Stream) : Prop where
  trigger : stream.localWindow.triggerSize ≠ 0
  sized : stream.Sized
  small : stream.request.size < 2 ^ 32

/-- **A turn.** A turn that sends something takes work from the stream, and no turn gives it
more. -/
theorem Diligent.work (diligent : stream.Diligent)
    (sent : stream.getTxData lowerBound encoder limit = .ok turn) :
    min 1 turn.out.length + turn.stream.work ≤ stream.work := by
  rcases getTxData_spec sent with
    ⟨half, rfl⟩ | ⟨_, _, rfl⟩ | ⟨_, _, headers, body, first, second, rfl⟩
  · simp only [Stream.work, signals, unsent, half, reduceCtorEq, ↓reduceIte, List.length_singleton]
    omega
  · exact Nat.le_of_eq (Nat.zero_add _)
  · have before := @headerPhase_work lowerBound { stream with isScheduled := false } _ _ _
      diligent.trigger first
    obtain ⟨slices, offset, size, _⟩ := headerPhase_body first
    obtain ⟨_, _, ⟨_, same, out⟩ | ⟨ready, after, frame, used, filled, same, out⟩⟩ :=
      bodyPhase_spec second
    · rw [out]
      simp only [same]
      exact before
    · have large : 2 * headerSize ≤ sizeSub (min limit stream.remoteWindow) headers.used := by
        simp only [bodyReady, Bool.and_eq_true, decide_eq_true_eq] at ready
        exact ready.2
      have taken := prepareBody_work (by rw [Sized, slices, size]; exact diligent.sized)
        (by rw [size]; exact diligent.small) large filled
      rw [out, List.length_append]
      simp only [same]
      change min 1 _ + after.work ≤ stream.work
      change min 1 _ + headers.stream.work ≤ stream.work at before
      omega

private theorem Diligent.receive (diligent : stream.Diligent) (received : Received) :
    (stream.receive received).Diligent := by
  have sending := receive_sending stream received
  have request : (stream.receive received).request = stream.request :=
    congrArg Sending.request sending
  refine ⟨?_, diligent.sized.congr sending, ?_⟩
  · rw [receive_localWindow]
    exact diligent.trigger
  · rw [request]
    exact diligent.small

private theorem Diligent.getTxData (diligent : stream.Diligent)
    (sent : stream.getTxData lowerBound encoder limit = .ok turn) : turn.stream.Diligent := by
  refine ⟨?_, diligent.sized.getTxData sent, ?_⟩
  · rcases getTxData_window sent with ⟨same, _⟩ | ⟨same, _⟩
    · rw [same]
      exact diligent.trigger
    · rw [same, DummyWindow.update_triggerSize]
      exact diligent.trigger
  · rcases getTxData_spec sent with
      ⟨_, rfl⟩ | ⟨_, _, rfl⟩ | ⟨_, _, headers, body, first, second, rfl⟩
    · exact diligent.small
    · exact diligent.small
    · obtain ⟨_, _, size, _⟩ := headerPhase_body first
      have kept : body.stream.request.size = headers.stream.request.size := by
        rcases bodyPhase_stream second with same | ⟨copied, same⟩
        · rw [same]
        · rw [same]
          rfl
      simp only [kept, size]
      exact diligent.small

/-- A stream stays so on its own. -/
theorem Diligent.evolves {received : List Received} {out : List OutFrame} {next : Stream}
    (diligent : stream.Diligent) (evolves : Evolves lowerBound stream received out next) :
    next.Diligent := by
  obtain ⟨seen, takes, _, _⟩ := evolves
  refine @Machine.run_kept _ _ _ _ _ (fun history => history.state.Diligent) ?_ _ _ _ diligent
    (takes [])
  intro history event after kept taken
  obtain ⟨state, out, stepped, rfl⟩ := Machine.advance_eq_ok taken
  cases event with
  | send encoder limit =>
      obtain ⟨turn, sent, same⟩ := Outcome.bind_eq_ok.mp stepped
      cases same
      exact kept.getTxData sent
  | receive received =>
      cases stepped
      exact kept.receive received

/-! ## Streams that are held back -/

/-- Why a stream that has something to send does not send it: a window is too small, the
first field does not fit into a frame, or nothing but empty slices is left of the body. -/
inductive Blocked (lowerBound : LowerBound) (encoder : Encoder) (limit : Nat) (stream : Stream) :
    Prop
  | window (short : min limit stream.remoteWindow < 2 * headerSize)
  | field {buffers : List Buffer} {after : Encoder} (listed : stream.request.headerList ≠ [])
      (encoded : stream.encodeHeaders lowerBound encoder (min limit stream.remoteWindow) =
        .ok (buffers, 0, after))
  | sizeless (sliced : stream.request.bodyList ≠ []) (empty : stream.request.size = 0)

private theorem headerPhase_blocked (ready : stream.hasTxData = true)
    (half : stream.httpState ≠ .halfClosed)
    (sent : stream.headerPhase lowerBound encoder (min limit stream.remoteWindow) = .ok turn)
    (nothing : turn.out = []) (unready : bodyReady turn (min limit stream.remoteWindow) = false) :
    stream.Blocked lowerBound encoder limit := by
  obtain ⟨same, _, unused, _⟩ := headerPhase_unsent sent nothing
  obtain ⟨headers, prepared, _, _, out⟩ := headerPhase_spec sent
  obtain ⟨noUpdate, noHeaders⟩ := List.append_eq_nil_iff.mp (out.symm.trans nothing)
  rcases prepared with ⟨listed, prepared⟩ | ⟨unlisted, _⟩
  · cases prepared with
    | nothing encoded => exact .field listed encoded
    | headers => cases noHeaders
    | continuation => cases noHeaders
    | closing => cases noHeaders
  · by_cases short : min limit stream.remoteWindow < 2 * headerSize
    · exact .window short
    · have listed : turn.stream.request.headerList = [] := by
        rw [same]
        exact unlisted
      have size : turn.stream.request.size = stream.request.size := by
        rw [same]
        rfl
      have empty : stream.request.size = 0 := by
        simpa [bodyReady, listed, size, unused, sizeSub_zero, Nat.not_lt.mp short] using unready
      refine .sizeless (fun unsliced => ?_) empty
      have due : stream.localWindow.needUpdate = true := by
        simpa [hasTxData, half, unlisted, unsliced] using ready
      simp [DummyWindow.update, due] at noUpdate

/-- A stream that has something to send and sends nothing in its turn is held back. -/
theorem blocked_of_unsent (ready : stream.hasTxData = true)
    (sent : stream.getTxData lowerBound encoder limit = .ok turn) (nothing : turn.out = []) :
    stream.Blocked lowerBound encoder limit := by
  rcases getTxData_spec sent with
    ⟨_, rfl⟩ | ⟨_, short, rfl⟩ | ⟨half, _, headers, body, first, second, rfl⟩
  · cases nothing
  · exact .window (Nat.lt_of_le_of_lt short (by decide))
  · obtain ⟨_, _, ⟨unready, _, out⟩ | ⟨_, _, _, _, _, _, out⟩⟩ := bodyPhase_spec second
    · have blocked := @headerPhase_blocked lowerBound { stream with isScheduled := false } _ _ _
        ready half first (out ▸ nothing) unready
      cases blocked with
      | window short => exact .window short
      | field listed encoded => exact .field listed encoded
      | sizeless sliced empty => exact .sizeless sliced empty
    · rw [out] at nothing
      exact absurd nothing (List.append_ne_nil_of_right_ne_nil _ (List.cons_ne_nil _ _))

end Stream

namespace Client

variable {lowerBound : LowerBound} {client next : Client} {event : Event}

/-! ## Rounds -/

/-- What a client has to send: commands and the work of its streams. -/
def work (client : Client) : Nat :=
  client.txCommandQueue.length +
    StreamRegistry.total Stream.work client.registry.heap client.registry.size

/-- What holds of a client in a run: its settings are the default ones, and its streams are
diligent. -/
structure Diligent (client : Client) : Prop where
  scheduled : client.registry.Scheduled
  settings : client.settings.localSettings = {}
  streams : ∀ ptr < client.registry.size, (client.registry.heap ptr).Diligent

/-- A request whose size is that of its body and fits into the frame builder. -/
def Moderate (request : Request) : Prop :=
  request.bodyList.flatten.length ≤ request.size ∧ request.size < 2 ^ 32

instance (request : Request) : Decidable (Moderate request) :=
  inferInstanceAs (Decidable (_ ∧ _))

private theorem Diligent.advance {history after : Machine.History Client Tx}
    (diligent : Diligent history.state)
    (moderate : ∀ request, event = .send request → Moderate request)
    (taken : (machine lowerBound).advance history event = .ok after) : Diligent after.state := by
  obtain ⟨state, out, stepped, rfl⟩ := Machine.advance_eq_ok taken
  have scheduled := scheduled_step diligent.scheduled stepped
  rcases step_react stepped with ⟨rfl, sent⟩ | ⟨sends, rfl, reacted⟩
  · obtain ⟨size, streams, _⟩ := getTxData_evolves diligent.scheduled sent
    refine ⟨scheduled, ?_, fun ptr inside => ?_⟩
    · rw [(getTxData_commands sent).2.2]
      exact diligent.settings
    · rw [size] at inside
      exact (diligent.streams ptr inside).evolves (streams ptr)
  · by_cases opens : ∃ request, event = .send request
    · obtain ⟨request, rfl⟩ := opens
      cases reacted
      cases connected : history.state.isConnected with
      | false =>
          simp only [initiateSend, called, connected, Bool.not_false, ↓reduceIte]
          exact diligent
      | true =>
          refine ⟨scheduled, ?_, fun ptr inside => ?_⟩
          · simp only [initiateSend, called, connected, Bool.not_true, Bool.false_eq_true,
              ↓reduceIte]
            exact diligent.settings
          · simp only [initiateSend, called, connected, Bool.not_true, Bool.false_eq_true,
              ↓reduceIte, StreamRegistry.addStream, diligent.settings] at inside ⊢
            by_cases new : ptr = history.state.registry.size
            · rw [new, Function.update_self]
              exact ⟨show UInt32.ofNat _ ≠ 0 by decide, (moderate request rfl).1,
                (moderate request rfl).2⟩
            · rw [Function.update_of_ne new]
              exact diligent.streams ptr (by omega)
    · have closed := fun request same => opens ⟨request, same⟩
      refine ⟨scheduled, ?_, fun ptr inside => ?_⟩
      · rcases react_localSettings reacted with same | fresh
        · exact same.trans diligent.settings
        · exact fresh
      · rw [react_size sends closed reacted] at inside
        exact (diligent.streams ptr inside).evolves
          (@react_evolves lowerBound _ _ _ sends closed reacted ptr)

/-- The turns of a round take work from the streams if anything is sent. -/
theorem run_turns_work {registry : StreamRegistry} {encoder : Encoder} {limit : Nat}
    {final : Machine.History Round (Nat × OutFrame)} (scheduled : registry.Scheduled)
    (diligent : ∀ ptr < registry.size, (registry.heap ptr).Diligent)
    (ran : (StreamRegistry.scheduler lowerBound limit).run ⟨⟨registry.heap, encoder, 0, []⟩, []⟩
      registry.queue = .ok final) :
    min 1 final.emitted.length + StreamRegistry.total Stream.work final.state.heap registry.size ≤
      StreamRegistry.total Stream.work registry.heap registry.size := by
  refine (@run_streams lowerBound registry encoder limit (fun heap _ emitted =>
    (∀ ptr < registry.size, (heap ptr).Diligent) ∧
      min 1 emitted.length + StreamRegistry.total Stream.work heap registry.size ≤
        StreamRegistry.total Stream.work registry.heap registry.size)
    final scheduled ?_ ⟨diligent, Nat.le_of_eq (Nat.zero_add _)⟩ ran).2
  rintro heap encoder emitted ptr limit turn stream inside _ ⟨streams, less⟩ sent marked
  have before := streams ptr inside
  have after := before.getTxData sent
  obtain ⟨same, kept⟩ : stream.work = turn.stream.work ∧ stream.Diligent := by
    rcases marked with rfl | ⟨_, rfl⟩
    · exact ⟨rfl, after⟩
    · exact ⟨rfl, after.trigger, after.sized, after.small⟩
  have taken := before.work sent
  have total := @StreamRegistry.total_update Stream.work heap ptr _ inside stream
  refine ⟨fun other within => ?_, ?_⟩
  · by_cases mine : other = ptr
    · rw [mine, Function.update_self]
      exact kept
    · rw [Function.update_of_ne mine]
      exact streams other within
  · rw [List.length_append, List.length_map]
    omega

/-- **A round.** A call of `get_tx_data` that returns something takes work from the client. -/
theorem getTxData_work {out : List Tx} (diligent : Diligent client)
    (sent : client.getTxData lowerBound = .ok (next, out)) :
    min 1 out.length + next.work ≤ client.work := by
  have queue := takeCommands_append client.txCommandQueue client.serverWindowSize
  obtain ⟨commands, left, window, taken, rest⟩ := getTxData_cases sent
  rw [taken] at queue
  have length : commands.length + left.length = client.txCommandQueue.length := by
    rw [← queue, List.length_append]
  rcases rest with ⟨_, rfl, rfl⟩ | ⟨_, final, ran, rfl, rfl⟩
  · simp only [work, List.length_map]
    omega
  · have less := run_turns_work diligent.scheduled diligent.streams ran
    have size : (withRound client.registry final.state).size = client.registry.size := rfl
    have heap : (withRound client.registry final.state).heap = final.state.heap := rfl
    simp only [work, size, heap, List.length_append, List.length_map, streamTx]
    omega

/-- **The write loop ends.** In every state that a client gets to, as many rounds of the
write loop in a row can have something to send as there is work: queued commands, and for
each stream its signals, header fields, and slices and bytes of the body. -/
theorem writes_quiesce (lowerBound : LowerBound) (events : List Event)
    (last : Machine.History Client Tx)
    (moderate : ∀ request, .send request ∈ events → Moderate request)
    (ran : (machine lowerBound).run start events = .ok last) (count : Nat)
    (busy : (machine lowerBound).Along (fun history _ => history.state.Sendable lowerBound) last
      (List.replicate count .getTxData)) :
    count ≤ last.state.work := by
  have diligent : Diligent last.state := by
    refine @Machine.run_invariant _ _ _ _ _
      (fun _ event => ∀ request, event = .send request → Moderate request)
      (fun history => Diligent history.state)
      (fun _ _ _ diligent moderate taken => diligent.advance moderate taken) start _ _
      ⟨StreamRegistry.Scheduled.create, rfl, fun _ inside => absurd inside (Nat.not_lt_zero _)⟩
      (@Machine.along_of_mem _ _ _ _ _
        (fun event => ∀ request, event = .send request → Moderate request) events
        (fun _ member request same => moderate request (same ▸ member)) start) ran
  have bound := @Machine.length_le_of_falls _ _ _ _ (machine lowerBound)
    (fun history event => event = .getTxData ∧ history.state.Sendable lowerBound)
    (fun history => Diligent history.state) work ?_ last diligent
    (List.replicate count .getTxData) ?_
  · rwa [List.length_replicate] at bound
  · rintro history event diligent ⟨rfl, next, out, sent, some⟩
    have less := getTxData_work diligent sent
    have positive := List.length_pos_iff.mpr some
    have taken : (machine lowerBound).advance history .getTxData =
        .ok ⟨next, history.emitted ++ out⟩ := by
      rw [Machine.advance]
      exact Outcome.bind_eq_ok.mpr ⟨(next, out), sent, rfl⟩
    refine ⟨_, taken, diligent.advance (by rintro _ ⟨⟩) taken, ?_⟩
    simp only
    omega
  · exact (Machine.along_of_mem (fun _ member => List.eq_of_mem_replicate member) last).and busy

/-- An upload of 100 bytes to a server with an initial window of 60 bytes. -/
def windowedUpload : List Event :=
  smallWindow ++ [.send (sampleRequest .post [] [List.replicate 100 7])]

/-- The upload takes three rounds, one with the headers and two with what is left of the
body. -/
theorem writes_quiesce_upload :
    ∃ last, (machine .linear).run start windowedUpload = .ok last ∧ last.state.work = 105 ∧
      3 ≤ last.state.work := by
  have passes : ((machine .linear).run start windowedUpload).toOption.any (fun last => decide (
      last.state.work = 105 ∧
        (machine .linear).Along (fun history _ => history.state.Sendable .linear) last
          (List.replicate 3 .getTxData))) = true := by
    decide +kernel
  obtain ⟨last, ran, checks⟩ := Outcome.exists_ok_of_any passes
  obtain ⟨work, busy⟩ := of_decide_eq_true checks
  have moderate : ∀ request, .send request ∈ windowedUpload → Moderate request := by
    intro request member
    obtain rfl : request = sampleRequest .post [] [List.replicate 100 7] := by
      simpa [windowedUpload, smallWindow, frameRead] using member
    decide +kernel
  exact ⟨last, ran, work, writes_quiesce .linear windowedUpload last moderate ran 3 busy⟩

/-! ## Rounds that send nothing -/

/-- In a round that sends nothing, every stream in the queue that has something to send is
held back. -/
theorem run_turns_blocked {registry : StreamRegistry} {encoder : Encoder} {limit : Nat}
    {final : Machine.History Round (Nat × OutFrame)} (scheduled : registry.Scheduled)
    (ran : (StreamRegistry.scheduler lowerBound limit).run ⟨⟨registry.heap, encoder, 0, []⟩, []⟩
      registry.queue = .ok final) (nothing : final.emitted = []) :
    ∀ ptr ∈ registry.queued, (registry.heap ptr).hasTxData = true →
      (registry.heap ptr).Blocked lowerBound encoder limit := by
  have held := (@run_all_turns lowerBound registry encoder limit (fun history remaining =>
    history.emitted = [] → StreamRegistry.Quiet lowerBound encoder limit history.state ∧
      ∀ ptr ∈ registry.queued, ptr ∈ remaining.reduceOption ∨
        ((registry.heap ptr).hasTxData = true →
          (registry.heap ptr).Blocked lowerBound encoder limit))
    final scheduled ?_ (fun _ => ⟨.start _, fun _ member => .inl member⟩) ran).2 nothing
  · exact fun ptr member => (held.2 ptr member).resolve_left List.not_mem_nil
  · intro history slot remaining next out rounds holds served empty
    obtain ⟨before, none⟩ := List.append_eq_nil_iff.mp empty
    obtain ⟨quiet, blocked⟩ := holds before
    refine ⟨(quiet.served served none).1, fun ptr member => ?_⟩
    rcases blocked ptr member with waits | done
    · cases slot with
      | none => exact .inl waits
      | some first =>
          rw [List.reduceOption_cons_of_some, List.mem_cons] at waits
          rcases waits with rfl | later
          · right
            intro ready
            have same : history.state.heap ptr = registry.heap ptr :=
              rounds.waiting ptr (.inl (by simp))
            obtain ⟨turn, sent, quietly⟩ : ∃ turn, (registry.heap ptr).getTxData lowerBound
                encoder limit = .ok turn ∧ turn.out = [] := by
              cases served with
              | skipped idle =>
                  rw [← same, idle ptr rfl] at ready
                  cases ready
              | again _ sent _ =>
                  rw [quiet.unchanged, quiet.unused, sizeSub_zero, same] at sent
                  exact ⟨_, sent, List.map_eq_nil_iff.mp none⟩
              | once _ sent _ =>
                  rw [quiet.unchanged, quiet.unused, sizeSub_zero, same] at sent
                  exact ⟨_, sent, List.map_eq_nil_iff.mp none⟩
            exact Stream.blocked_of_unsent ready sent quietly
          · exact .inl later
    · exact .inr done

/-- What holds of the client when `get_tx_data` returns nothing. -/
inductive Idle (lowerBound : LowerBound) (client : Client) : Prop
  | command {command : Bytes} {commands : List Bytes}
      (queue : client.txCommandQueue = command :: commands)
      (large : client.serverWindowSize < command.length)
  | window (queue : client.txCommandQueue = [])
      (short : min client.serverWindowSize client.settings.localSettings.maxFrameSize <
        2 * headerSize)
  | streams (queue : client.txCommandQueue = [])
      (blocked : ∀ id ptr, client.registry.getStream id = some ptr →
        (client.registry.heap ptr).hasTxData = true →
        (client.registry.heap ptr).Blocked lowerBound client.encoder
          (min client.serverWindowSize client.settings.localSettings.maxFrameSize))

/-- **The write loop stops for a reason.** When `get_tx_data` returns nothing, the first
command does not fit into the window of the connection, or this window is too small for any
stream, or every open stream that has something to send is held back on its own. -/
theorem idle_blocked (lowerBound : LowerBound) (events : List Event)
    (last : Machine.History Client Tx) (next : Client)
    (made : ∀ request, .send request ∈ events → request.Made)
    (bounded : (machine lowerBound).Along WindowsBounded start events)
    (ran : (machine lowerBound).run start events = .ok last)
    (sent : last.state.getTxData lowerBound = .ok (next, [])) : Idle lowerBound last.state := by
  have waiting : last.state.registry.Waiting := by
    refine @Machine.run_invariant _ _ _ _ _ _ (fun history => history.state.registry.Waiting)
      ?_ _ _ _ ⟨StreamRegistry.Scheduled.create, fun _ _ found => by cases found⟩
      ((@Machine.along_of_mem _ _ _ _ _
        (fun event => ∀ request, event = .send request → request.Made) events
        (fun _ member request same => made request (same ▸ member)) start).and bounded) ran
    rintro history event after waiting ⟨made, bounded⟩ taken
    obtain ⟨state, out, stepped, rfl⟩ := Machine.advance_eq_ok taken
    exact @waiting_step lowerBound _ _ _ history.emitted (.event event) waiting
      (fun request same => made request (Operation.event.inj same)) bounded stepped
  obtain ⟨commands, left, window, taken, rest⟩ := getTxData_cases sent
  obtain rfl : commands = [] := by
    rcases rest with ⟨_, _, out⟩ | ⟨_, _, _, _, out⟩
    · exact List.map_eq_nil_iff.mp out.symm
    · exact List.map_eq_nil_iff.mp (List.append_eq_nil_iff.mp out.symm).1
  obtain ⟨rfl, rfl⟩ := takeCommands_none taken
  cases queue : last.state.txCommandQueue with
  | cons command commands =>
      refine .command queue ?_
      rw [queue, takeCommands] at taken
      split at taken
      · assumption
      · cases taken
  | nil =>
      have limit : last.state.streamLimit =
          min last.state.serverWindowSize last.state.settings.localSettings.maxFrameSize := by
        rw [streamLimit, taken]
      rcases rest with ⟨unserved, _, _⟩ | ⟨_, final, ran, _, out⟩
      · refine .window queue (Nat.not_le.mp fun large => unserved ⟨?_, limit ▸ large⟩)
        rw [taken, queue]
      · refine .streams queue fun id ptr found ready => ?_
        obtain ⟨queued, marked⟩ := waiting.waits id ptr found
        rw [← limit]
        exact run_turns_blocked waiting.scheduled ran (List.map_eq_nil_iff.mp out.symm) ptr
          (queued (marked.symm.trans ready)) ready

/-- The server has an initial window of 24 bytes, of which the HEADERS frame takes 15. -/
def nineLeft : List Event :=
  [.connected, frameRead 4 0 0 [0, 4, 0, 0, 0, 24], .getTxData,
    .send (sampleRequest .post [] [List.replicate 100 7]), .getTxData]

/-- The upload is held back by its window. -/
theorem idle_blocked_upload :
    ∃ last, (machine .linear).run start nineLeft = .ok last ∧ last.state.work = 101 ∧
      Idle .linear last.state := by
  have passes : ((machine .linear).run start nineLeft).toOption.any (fun last => decide (
      last.state.work = 101 ∧ (machine .linear).Along WindowsBounded start nineLeft) &&
        (last.state.getTxData .linear).toOption.any (fun sent => sent.2.isEmpty)) = true := by
    decide +kernel
  obtain ⟨last, ran, checks⟩ := Outcome.exists_ok_of_any passes
  obtain ⟨holds, nothing⟩ := Bool.and_eq_true_iff.mp checks
  obtain ⟨work, bounded⟩ := of_decide_eq_true holds
  obtain ⟨⟨next, out⟩, sent, empty⟩ := Outcome.exists_ok_of_any nothing
  obtain rfl := List.isEmpty_iff.mp empty
  have made : ∀ request, .send request ∈ nineLeft → request.Made := by
    intro request member
    obtain rfl : request = sampleRequest .post [] [List.replicate 100 7] := by
      simpa [nineLeft, frameRead] using member
    exact sampleRequest_made _ _ _
  exact ⟨last, ran, work, idle_blocked .linear nineLeft last next made bounded ran sent⟩

end Client

end H2pp.Http2

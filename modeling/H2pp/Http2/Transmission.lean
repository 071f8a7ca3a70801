import H2pp.Http2.Stream

/-! # Sending the body of a request

The DATA frames of a stream over all its calls of `get_tx_data`, in any order with
what it receives. `prepare_body` computes the size of a frame from the total size of
the body and an offset into the current slice, so the payload may be larger than what
is left. The body arrives complete exactly when that does not happen.
-/

namespace H2pp.Http2.Stream

open Utils Hpack

/-- The DATA frames among the frames sent. -/
def dataFrames (frames : List OutFrame) : List OutFrame := frames.filter (·.type = .data)

/-- The payloads of the DATA frames. -/
def payloads (frames : List OutFrame) : Bytes := (dataFrames frames).flatMap OutFrame.payload

@[simp] private theorem dataFrames_append (first second : List OutFrame) :
    dataFrames (first ++ second) = dataFrames first ++ dataFrames second := List.filter_append ..

@[simp] private theorem payloads_append (first second : List OutFrame) :
    payloads (first ++ second) = payloads first ++ payloads second := by
  rw [payloads, dataFrames_append, List.flatMap_append, payloads, payloads]

@[simp] private theorem dataFrames_update (window : DummyWindow) (id : Nat) :
    dataFrames (window.update id).1.toList = [] := by
  unfold DummyWindow.update
  split <;> rfl

variable {lowerBound : LowerBound} {stream : Stream} {encoder : Encoder} {limit : Nat} {turn : Turn}

/-- A frame that closes a request without a body. -/
def closingFrame (id : Nat) : OutFrame := (FrameBuilder.data id Flags.endStream 0).1

/-- The header phase leaves the body alone. Of DATA frames it sends at most the empty
one that closes a request without a body. -/
theorem headerPhase_body (sent : stream.headerPhase lowerBound encoder limit = .ok turn) :
    turn.stream.request.bodyList = stream.request.bodyList ∧
      turn.stream.sendBodyOffset = stream.sendBodyOffset ∧
      turn.stream.request.size = stream.request.size ∧ turn.stream.httpId = stream.httpId ∧
      (turn.stream.request.headerList ≠ [] → stream.request.headerList ≠ []) ∧
      (dataFrames turn.out = [] ∨ dataFrames turn.out = [closingFrame stream.httpId] ∧
        stream.request.bodyList = [] ∧ stream.request.headerList ≠ []) := by
  obtain ⟨headers, prepared, same, _, out⟩ := headerPhase_spec sent
  rw [same, out, dataFrames_append, dataFrames_update, List.nil_append]
  rcases prepared with ⟨listed, prepared⟩ | ⟨_, rfl⟩
  · cases prepared with
    | nothing encoded => exact ⟨rfl, rfl, rfl, rfl, id, .inl rfl⟩
    | headers encoded some first => exact ⟨rfl, rfl, rfl, rfl, fun _ => listed, .inl rfl⟩
    | continuation encoded some later more => exact ⟨rfl, rfl, rfl, rfl, fun _ => listed, .inl rfl⟩
    | closing encoded some later all bodyless =>
        exact ⟨rfl, rfl, rfl, rfl, fun _ => listed, .inr ⟨rfl, bodyless, listed⟩⟩
  · exact ⟨rfl, rfl, rfl, rfl, id, .inl rfl⟩

/-- The limit with which a call of `get_tx_data` enters `prepare_body`, if it does. -/
def bodyCall (lowerBound : LowerBound) (stream : Stream) (encoder : Encoder) (limit : Nat) :
    Option Nat :=
  if stream.httpState = .halfClosed then none
  else if min limit stream.remoteWindow ≤ 16 then none
  else
    match { stream with isScheduled := false }.headerPhase lowerBound encoder
        (min limit stream.remoteWindow) with
    | .error _ => none
    | .ok headers =>
        if bodyReady headers (min limit stream.remoteWindow) then
          some (sizeSub (min limit stream.remoteWindow) headers.used)
        else none

/-- A call that sends anything of the request goes through its header phase, and then
enters `prepare_body` or not. -/
theorem getTxData_phases (sent : stream.getTxData lowerBound encoder limit = .ok turn) :
    turn.stream.sending = stream.sending ∧
        (turn.out = [] ∨
          stream.httpState = .halfClosed ∧ turn.out = [FrameBuilder.reset 0 stream.httpId]) ∨
      stream.httpState ≠ .halfClosed ∧ 16 < min limit stream.remoteWindow ∧
        ∃ headers : Turn,
          { stream with isScheduled := false }.headerPhase lowerBound encoder
            (min limit stream.remoteWindow) = .ok headers ∧
          (turn.stream.sending = headers.stream.sending ∧ turn.out = headers.out ∨
            ∃ argument after frame used,
              stream.bodyCall lowerBound encoder limit = some argument ∧
              headers.stream.request.headerList = [] ∧
              headers.stream.prepareBody argument = .ok (after, frame, used) ∧
              turn.stream.sending = after.sending ∧ turn.out = headers.out ++ [frame]) := by
  rcases getTxData_spec sent with
    ⟨half, rfl⟩ | ⟨_, _, rfl⟩ | ⟨half, large, headers, body, first, second, rfl⟩
  · exact .inl ⟨rfl, .inr ⟨half, rfl⟩⟩
  · exact .inl ⟨rfl, .inl rfl⟩
  · refine .inr ⟨half, large, headers, first, ?_⟩
    unfold bodyPhase at second
    split at second
    · rename_i ready
      obtain ⟨⟨after, frame, used⟩, filled, same⟩ := Outcome.bind_eq_ok.mp second
      cases same
      refine .inr ⟨_, after, frame, used, ?_, ?_, filled, rfl, rfl⟩
      · rw [bodyCall, if_neg half, if_neg (Nat.not_le.mpr large), first]
        exact if_pos ready
      · simp only [bodyReady, Bool.and_eq_true, decide_eq_true_eq] at ready
        exact ready.1.1
    · cases second
      exact .inl ⟨rfl, rfl⟩

/-- What is sent by the body phase does not depend on what the header phase changes. -/
theorem dataFrame_congr {other : Stream} (id : other.httpId = stream.httpId)
    (size : other.request.size = stream.request.size)
    (offset : other.sendBodyOffset = stream.sendBodyOffset) (argument : Nat) :
    other.dataFrame argument = stream.dataFrame argument := by
  unfold dataFrame bodySizes
  rw [id, size, offset]

private theorem headerPhase_defined :
    stream.headerPhase lowerBound encoder limit ≠ .error .undefinedBehaviour :=
  fun failed => Encoder.encode_defined _ _ _ _ (headerPhase_failed failed).2

/-- A call that does not enter `prepare_body` sends nothing of the body. -/
theorem getTxData_idle (idle : stream.bodyCall lowerBound encoder limit = none) :
    stream.getTxData lowerBound encoder limit ≠ .error .undefinedBehaviour ∧
      ∀ turn, stream.getTxData lowerBound encoder limit = .ok turn →
        turn.stream.unsent = stream.unsent ∧ turn.stream.request.size = stream.request.size ∧
        (turn.stream.request.headerList ≠ [] → stream.request.headerList ≠ []) ∧
        (dataFrames turn.out = [] ∨ dataFrames turn.out = [closingFrame stream.httpId] ∧
          stream.request.bodyList = [] ∧ stream.request.headerList ≠ []) := by
  unfold bodyCall at idle
  unfold getTxData
  simp only
  split
  · refine ⟨Outcome.ok_ne_error _ _, fun turn sent => ?_⟩
    cases sent
    exact ⟨rfl, rfl, id, .inl rfl⟩
  · rename_i half
    rw [if_neg half] at idle
    split
    · refine ⟨Outcome.ok_ne_error _ _, fun turn sent => ?_⟩
      cases sent
      exact ⟨rfl, rfl, id, .inl rfl⟩
    · rename_i open_
      rw [if_neg open_] at idle
      cases phase : { stream with isScheduled := false }.headerPhase lowerBound encoder
          (min limit stream.remoteWindow) with
      | error failure =>
          refine ⟨fun same => headerPhase_defined (phase.trans same), fun turn sent => ?_⟩
          cases sent
      | ok headers =>
          rw [phase] at idle
          simp only at idle
          split at idle
          · cases idle
          · rename_i rest
            obtain ⟨body, offset, size, _, fewer, frames⟩ := headerPhase_body phase
            rw [Outcome.ok_bind, bodyPhase, if_neg rest, Outcome.ok_bind]
            refine ⟨Outcome.ok_ne_error _ _, fun turn sent => ?_⟩
            cases sent
            refine ⟨?_, size, fewer, frames⟩
            simp only [unsent, body, offset]

/-- A call that enters `prepare_body` goes through its header phase first. -/
theorem getTxData_body {argument : Nat}
    (called : stream.bodyCall lowerBound encoder limit = some argument) :
    ∃ headers : Turn,
      { stream with isScheduled := false }.headerPhase lowerBound encoder
        (min limit stream.remoteWindow) = .ok headers ∧
      headers.stream.request.headerList = [] ∧ stream.request.size ≠ 0 ∧
      stream.getTxData lowerBound encoder limit =
        (headers.stream.prepareBody argument >>= fun result =>
          .ok ⟨{ result.1 with
              remoteWindow := sizeSub result.1.remoteWindow (headers.used + result.2.2) },
            headers.out ++ [result.2.1], headers.encoder, headers.used + result.2.2⟩) := by
  unfold bodyCall at called
  split at called
  · cases called
  · rename_i half
    split at called
    · cases called
    · rename_i open_
      split at called
      · cases called
      · rename_i headers phase
        split at called
        · rename_i ready
          cases called
          obtain ⟨_, _, size, _, _, _⟩ := headerPhase_body phase
          have listed := ready
          simp only [bodyReady, Bool.and_eq_true, decide_eq_true_eq] at listed
          refine ⟨headers, phase, listed.1.1, size ▸ listed.1.2, ?_⟩
          unfold getTxData
          simp only
          rw [if_neg half, if_neg open_, phase, Outcome.ok_bind, bodyPhase, if_pos ready]
          cases headers.stream.prepareBody
            (sizeSub (min limit stream.remoteWindow) headers.used) with
          | error failure => rfl
          | ok result => rfl
        · cases called

/-- A call that enters `prepare_body` with a payload that is not larger than what is
left sends one DATA frame. -/
theorem getTxData_fits {argument : Nat}
    (called : stream.bodyCall lowerBound encoder limit = some argument)
    (some : stream.request.bodyList ≠ [])
    (enough : (stream.dataFrame argument).2 ≤ stream.unsent.length) :
    ∃ turn, stream.getTxData lowerBound encoder limit = .ok turn ∧
      dataFrames turn.out = [{ (stream.dataFrame argument).1 with
        payload := stream.unsent.take (stream.dataFrame argument).2 }] ∧
      turn.stream.unsent = stream.unsent.drop (stream.dataFrame argument).2 ∧
      turn.stream.request.headerList = [] ∧
      turn.stream.request.size = stream.request.size := by
  obtain ⟨headers, phase, listed, _, sent⟩ := getTxData_body called
  obtain ⟨body, offset, size, id, _, frames⟩ := headerPhase_body phase
  have left : headers.stream.unsent = stream.unsent := by
    simp only [unsent, body, offset]
  have same : headers.stream.dataFrame argument = stream.dataFrame argument :=
    dataFrame_congr id size offset argument
  obtain ⟨after, filled, remaining, list, total, _, _⟩ :=
    @prepareBody_ok headers.stream argument (body ▸ some)
      (by rw [same, left]; exact enough)
  rw [left, same] at filled remaining
  rw [filled, Outcome.ok_bind] at sent
  refine ⟨_, sent, ?_, remaining, list.trans listed, total.trans size⟩
  have none : dataFrames headers.out = [] := frames.resolve_right fun closing => some closing.2.1
  rw [dataFrames_append, none]
  rfl

/-- With a larger payload the call reads behind the last slice. -/
theorem getTxData_short {argument : Nat}
    (called : stream.bodyCall lowerBound encoder limit = some argument)
    (short : stream.request.bodyList = [] ∨
      stream.unsent.length < (stream.dataFrame argument).2) :
    stream.getTxData lowerBound encoder limit = .error .undefinedBehaviour := by
  obtain ⟨headers, phase, _, _, sent⟩ := getTxData_body called
  obtain ⟨body, offset, size, id, _, _⟩ := headerPhase_body phase
  have left : headers.stream.unsent = stream.unsent := by
    simp only [unsent, body, offset]
  rw [sent, prepareBody_undefined, Outcome.error_bind]
  rw [body, left, dataFrame_congr id size offset argument]
  exact short

/-! ## Runs -/

/-- The outcome of a step that loses nothing of the body: it is defined, what was sent
and what is left make up the body, every DATA frame says how long it is, and once the
whole body was sent no DATA frame follows. -/
def KeepsBody (body : Bytes) (before : Machine.History Stream OutFrame) :
    Except Failure (Machine.History Stream OutFrame) → Prop
  | .error failure => failure ≠ .undefinedBehaviour
  | .ok next =>
      payloads next.emitted ++ next.state.unsent = body ∧
      (∀ frame ∈ dataFrames next.emitted, frame.length = frame.payload.length) ∧
      (body ≠ [] → payloads before.emitted = body →
        dataFrames next.emitted = dataFrames before.emitted)

instance (body : Bytes) (before : Machine.History Stream OutFrame) :
    ∀ outcome, Decidable (KeepsBody body before outcome)
  | .error _ => inferInstanceAs (Decidable (_ ≠ _))
  | .ok _ => inferInstanceAs (Decidable (_ ∧ _ ∧ _))

/-- A step that loses nothing of the body. -/
def Lossless (lowerBound : LowerBound) (body : Bytes) (history : Machine.History Stream OutFrame)
    (event : Event) : Prop :=
  KeepsBody body history ((machine lowerBound).advance history event)

instance (lowerBound : LowerBound) (body : Bytes) (history : Machine.History Stream OutFrame)
    (event : Event) : Decidable (Lossless lowerBound body history event) :=
  inferInstanceAs (Decidable (KeepsBody _ _ _))

/-- A step that enters `prepare_body`, if at all, with bytes left to send and a payload
that is not larger than what is left and than a frame can be. -/
def FrameFits (lowerBound : LowerBound) (history : Machine.History Stream OutFrame) :
    Event → Prop
  | .receive _ => True
  | .send encoder limit =>
      ∀ argument ∈ history.state.bodyCall lowerBound encoder limit,
        0 < history.state.unsent.length ∧
        (history.state.dataFrame argument).2 ≤ history.state.unsent.length ∧
        (history.state.dataFrame argument).2 < 2 ^ 24

/-- What holds along a run that loses nothing. -/
structure Tracked (body : Bytes) (history : Machine.History Stream OutFrame) : Prop where
  complete : payloads history.emitted ++ history.state.unsent = body
  lengths : ∀ frame ∈ dataFrames history.emitted, frame.length = frame.payload.length
  size : history.state.request.size = body.length
  headersFirst : history.state.request.headerList ≠ [] → payloads history.emitted = []

variable {body : Bytes} {history : Machine.History Stream OutFrame}

/-- Frames that carry the next bytes keep the books. -/
theorem Tracked.sent (tracked : Tracked body history) {after : Stream} {out : List OutFrame}
    (remaining : payloads out ++ after.unsent = history.state.unsent)
    (lengths : ∀ frame ∈ dataFrames out, frame.length = frame.payload.length)
    (size : after.request.size = history.state.request.size)
    (headers : after.request.headerList ≠ [] →
      history.state.request.headerList ≠ [] ∧ payloads out = []) :
    Tracked body ⟨after, history.emitted ++ out⟩ := by
  refine ⟨?_, fun frame member => ?_, size.trans tracked.size, fun listed => ?_⟩
  · rw [payloads_append, List.append_assoc, remaining, tracked.complete]
  · rw [dataFrames_append, List.mem_append] at member
    exact member.elim (tracked.lengths frame) (lengths frame)
  · rw [payloads_append, tracked.headersFirst (headers listed).1, (headers listed).2,
      List.append_nil]

/-- A call that does not enter `prepare_body` loses nothing. -/
theorem Tracked.idle (tracked : Tracked body history)
    (idle : history.state.bodyCall lowerBound encoder limit = none) {turn : Turn}
    (sent : history.state.getTxData lowerBound encoder limit = .ok turn) :
    Tracked body ⟨turn.stream, history.emitted ++ turn.out⟩ ∧
      (body ≠ [] → payloads history.emitted = body → dataFrames turn.out = []) := by
  obtain ⟨left, size, fewer, frames⟩ := (getTxData_idle idle).2 turn sent
  have empty : ∀ frame ∈ dataFrames turn.out, frame.length = 0 ∧ frame.payload = [] := by
    rcases frames with none | ⟨closing, _, _⟩
    · rw [none]
      exact fun _ member => nomatch member
    · rw [closing]
      intro frame member
      rw [List.mem_singleton.mp member]
      exact ⟨rfl, rfl⟩
  have nothing : payloads turn.out = [] :=
    List.flatMap_eq_nil_iff.mpr fun frame member => (empty frame member).2
  refine ⟨tracked.sent ?_ ?_ size fun listed => ⟨fewer listed, nothing⟩, fun some all => ?_⟩
  · rw [nothing, left, List.nil_append]
  · intro frame member
    rw [(empty frame member).1, (empty frame member).2]
    rfl
  · refine frames.resolve_right fun closing => some ?_
    rw [← all, tracked.headersFirst closing.2.2]

/-- A call that enters `prepare_body` with a payload that fits loses nothing. -/
theorem Tracked.fits (tracked : Tracked body history) {argument : Nat}
    (called : history.state.bodyCall lowerBound encoder limit = some argument)
    (left : 0 < history.state.unsent.length)
    (enough : (history.state.dataFrame argument).2 ≤ history.state.unsent.length)
    (small : (history.state.dataFrame argument).2 < 2 ^ 24) :
    ∃ turn, history.state.getTxData lowerBound encoder limit = .ok turn ∧
      Tracked body ⟨turn.stream, history.emitted ++ turn.out⟩ ∧
      payloads history.emitted ≠ body := by
  have some : history.state.request.bodyList ≠ [] := by
    intro none
    rw [unsent, none, List.flatten_nil, List.drop_nil] at left
    exact absurd left (Nat.lt_irrefl 0)
  obtain ⟨turn, sent, frames, remaining, listed, size⟩ := getTxData_fits called some enough
  refine ⟨turn, sent, tracked.sent ?_ ?_ size fun list => absurd listed list, fun all => ?_⟩
  · rw [payloads, frames, remaining]
    simp only [List.flatMap_cons, List.flatMap_nil, List.append_nil, List.take_append_drop]
  · rw [frames]
    intro frame member
    rw [List.mem_singleton.mp member, List.length_take, Nat.min_eq_left enough]
    change (history.state.bodySizes argument).2 % 2 ^ 24 =
      (history.state.bodySizes argument).2 % 2 ^ 32
    change (history.state.bodySizes argument).2 % 2 ^ 32 < 2 ^ 24 at small
    omega
  · have complete := tracked.complete
    rw [all] at complete
    rw [List.append_right_eq_self.mp complete] at left
    exact absurd left (Nat.lt_irrefl 0)

/-- A call that enters `prepare_body` and loses nothing has a payload that fits. -/
theorem fits_of_lossless (tracked : Tracked body history) {argument : Nat}
    (called : history.state.bodyCall lowerBound encoder limit = some argument)
    (lossless : Lossless lowerBound body history (.send encoder limit)) :
    0 < history.state.unsent.length ∧
      (history.state.dataFrame argument).2 ≤ history.state.unsent.length ∧
      (history.state.dataFrame argument).2 < 2 ^ 24 := by
  have defined : history.state.getTxData lowerBound encoder limit ≠
      .error .undefinedBehaviour := by
    intro undefined
    simp only [Lossless, KeepsBody, Machine.advance, machine, undefined, Outcome.error_bind]
      at lossless
    exact lossless rfl
  have some : history.state.request.bodyList ≠ [] := fun none =>
    defined (getTxData_short called (.inl none))
  have enough : (history.state.dataFrame argument).2 ≤ history.state.unsent.length :=
    Nat.not_lt.mp fun short => defined (getTxData_short called (.inr short))
  obtain ⟨turn, sent, frames, remaining, _, _⟩ := getTxData_fits called some enough
  simp only [Lossless, KeepsBody, Machine.advance, machine, sent, Outcome.ok_bind,
    dataFrames_append, frames] at lossless
  obtain ⟨_, lengths, last⟩ := lossless
  refine ⟨Nat.pos_of_ne_zero fun none => ?_, enough, ?_⟩
  · -- all is sent, and yet there is another DATA frame
    have left := List.length_eq_zero_iff.mp none
    have complete := tracked.complete
    rw [left, List.append_nil] at complete
    obtain ⟨_, _, _, total, _⟩ := getTxData_body called
    have nonempty : body ≠ [] := by
      rintro rfl
      exact total tracked.size
    exact absurd (List.append_right_eq_self.mp (last nonempty complete)) (List.cons_ne_nil _ _)
  · have length := lengths _ (List.mem_append_right _ (List.mem_singleton.mpr rfl))
    rw [List.length_take, Nat.min_eq_left enough] at length
    rw [← length]
    exact Nat.mod_lt _ (by decide)

private theorem Tracked.receive (tracked : Tracked body history) (received : Received) :
    Tracked body ⟨history.state.receive received, history.emitted ++ []⟩ := by
  have same := receive_sending history.state received
  have request : (history.state.receive received).request = history.state.request :=
    congrArg Sending.request same
  have left : (history.state.receive received).unsent = history.state.unsent :=
    congrArg (fun part : Sending => part.request.bodyList.flatten.drop part.sendBodyOffset) same
  refine tracked.sent left (fun _ member => nomatch member) (by rw [request]) fun listed => ?_
  exact ⟨request ▸ listed, rfl⟩

/-- Where the books are right, a step loses nothing exactly if its frame fits. -/
theorem lossless_iff_fits (tracked : Tracked body history) (event : Event) :
    Lossless lowerBound body history event ↔ FrameFits lowerBound history event := by
  cases event with
  | receive received =>
      have kept := tracked.receive received
      refine iff_of_true ⟨kept.complete, kept.lengths, fun _ _ => ?_⟩ trivial
      exact congrArg dataFrames (List.append_nil _)
  | send encoder limit =>
      constructor
      · intro lossless argument called
        exact fits_of_lossless tracked called lossless
      · intro fits
        cases called : history.state.bodyCall lowerBound encoder limit with
        | none =>
            cases sent : history.state.getTxData lowerBound encoder limit with
            | error failure =>
                simp only [Lossless, KeepsBody, Machine.advance, machine, sent, Outcome.error_bind]
                rintro rfl
                exact (getTxData_idle called).1 sent
            | ok turn =>
                obtain ⟨kept, last⟩ := tracked.idle called sent
                simp only [Lossless, KeepsBody, Machine.advance, machine, sent, Outcome.ok_bind]
                refine ⟨kept.complete, kept.lengths, fun some all => ?_⟩
                rw [dataFrames_append, last some all, List.append_nil]
        | some argument =>
            obtain ⟨left, enough, small⟩ := fits argument called
            obtain ⟨turn, sent, kept, more⟩ := tracked.fits called left enough small
            simp only [Lossless, KeepsBody, Machine.advance, machine, sent, Outcome.ok_bind]
            exact ⟨kept.complete, kept.lengths, fun _ all => absurd all more⟩

private theorem Tracked.advance (tracked : Tracked body history) {event : Event}
    {next : Machine.History Stream OutFrame} (fits : FrameFits lowerBound history event)
    (taken : (machine lowerBound).advance history event = .ok next) : Tracked body next := by
  cases event with
  | receive received =>
      cases taken
      exact tracked.receive received
  | send encoder limit =>
      cases sent : history.state.getTxData lowerBound encoder limit with
      | error failure =>
          simp only [Machine.advance, machine, sent, Outcome.error_bind] at taken
          cases taken
      | ok turn =>
          simp only [Machine.advance, machine, sent, Outcome.ok_bind] at taken
          cases taken
          cases called : history.state.bodyCall lowerBound encoder limit with
          | none => exact (tracked.idle called sent).1
          | some argument =>
              obtain ⟨left, enough, small⟩ := fits argument called
              obtain ⟨_, same, kept, _⟩ := tracked.fits called left enough small
              cases sent.symm.trans same
              exact kept

/-- A new stream with a request that has the header list and the body slices given. -/
def newStream (id remoteSize localSize : Nat) (headerList : List HeaderField)
    (slices : List Bytes) : Machine.History Stream OutFrame :=
  ⟨create id remoteSize localSize ((⟨headerList, [], 0⟩ : Request).bodies slices), []⟩

/-- **Losslessness of body transmission.** Over a run of a new stream nothing of the
body is lost exactly if, at every call of `prepare_body`, there are bytes left to send
and the payload it computes is not larger than they are. -/
theorem transmission_lossless_iff (lowerBound : LowerBound) (id remoteSize localSize : Nat)
    (headerList : List HeaderField) (slices : List Bytes) (events : List Event) :
    (machine lowerBound).Along (Lossless lowerBound slices.flatten)
        (newStream id remoteSize localSize headerList slices) events ↔
      (machine lowerBound).Along (FrameFits lowerBound)
        (newStream id remoteSize localSize headerList slices) events := by
  have start : Tracked slices.flatten (newStream id remoteSize localSize headerList slices) := by
    refine ⟨?_, fun _ member => (nomatch member), ?_, fun _ => rfl⟩
    · simp only [newStream, create, unsent, Request.bodies_bodyList, List.nil_append,
        List.drop_zero]
      rfl
    · simp only [newStream, create, Request.bodies_size, Nat.zero_add]
  exact Machine.along_iff (fun _ event tracked => lossless_iff_fits tracked event)
    (fun _ _ _ tracked fits taken => tracked.advance fits taken) start events

/-- Two body slices of twenty bytes. The first call sends the first slice; the second
wants to fill a payload of forty bytes, and reads behind the second slice. -/
theorem transmission_two_slices :
    ¬ (machine .linear).Along
        (Lossless .linear [List.replicate 20 (97 : UInt8), List.replicate 20 98].flatten)
        (newStream 0x1000000 65535 65535
          [⟨ascii ":method", ascii "GET", .default, by decide⟩]
          [List.replicate 20 97, List.replicate 20 98])
        [.send .create 39, .send .create 100] := by
  decide +kernel

end H2pp.Http2.Stream

import H2pp.Http2.RequestFrames
import H2pp.Http2.Scheduling

/-! # Accounting

The bytes that `stream::get_tx_data` sends, those that it returns, and the subtractions it
makes on the way. What a call puts out is planned from the state before it: a window
update, if one is due, and a frame with the header fields that the encoder takes. The
sizes of DATA frames are asked of buffers that were moved away, so they are not counted,
and the limit for the encoder leaves no room for the window update.
-/

namespace H2pp.Http2

open Utils Hpack

namespace Stream

/-- The number of bytes that the frames have when they are sent. -/
def outSize (frames : List OutFrame) : Nat := (frames.flatMap OutFrame.bytes).length

/-- What a call of `get_tx_data` that sends is going to put out: the size of the window
update, the size of the frame with header fields, whether an empty DATA frame closes the
request, and whether the body comes next. -/
structure Plan where
  update : Nat
  header : Nat
  closes : Bool
  follows : Bool
  deriving DecidableEq, Repr

/-- The bytes that the call counts. -/
def Plan.used (plan : Plan) : Nat := plan.update + plan.header

/-- The sizes of the frames of the header block. -/
def Plan.frames (plan : Plan) : List Nat :=
  (if plan.header = 0 then [] else [plan.header]) ++ if plan.closes then [headerSize] else []

/-- Whether a DATA frame with the body is due. -/
def Plan.sendsBody (plan : Plan) (limit : Nat) : Bool :=
  plan.follows && sizeSub limit plan.used ≥ 2 * headerSize

/-- The number of header fields that the encoder takes, and the size of their block. -/
def taken (lowerBound : LowerBound) (stream : Stream) (encoder : Encoder) (limit : Nat) :
    Nat × Nat :=
  if stream.request.headerList = [] then (0, 0)
  else
    match stream.encodeHeaders lowerBound encoder limit with
    | .error _ => (0, 0)
    | .ok (buffers, count, _) => (count, (buffers.flatMap Buffer.data).length)

/-- The plan of a call that may send `limit` bytes. -/
def plan (lowerBound : LowerBound) (stream : Stream) (encoder : Encoder) (limit : Nat) : Plan :=
  let (fields, block) := stream.taken lowerBound encoder limit
  let request := stream.request.commitHeaders fields
  { update := if stream.localWindow.needUpdate then 13 else 0
    header := if fields = 0 then 0 else headerSize + block
    closes := stream.isContinuation && fields ≠ 0 && request.headerList = [] &&
      request.bodyList = []
    follows := request.headerList = [] && request.size ≠ 0 }

variable {lowerBound : LowerBound} {stream : Stream} {encoder : Encoder} {limit : Nat} {turn : Turn}

private theorem outSize_eq (frames : List OutFrame) :
    outSize frames = (frames.map OutFrame.size).sum := by
  rw [outSize, List.length_flatMap]
  exact congrArg List.sum (List.map_congr_left fun frame _ => frame.length_bytes)

/-- The size is additive. -/
@[simp] theorem outSize_append (first second : List OutFrame) :
    outSize (first ++ second) = outSize first + outSize second := by
  rw [outSize, List.flatMap_append, List.length_append, outSize, outSize]

private theorem Plan.frames_sum (plan : Plan) :
    plan.frames.sum = plan.header + if plan.closes then headerSize else 0 := by
  rw [frames, List.sum_append]
  split <;> split <;> simp [*]

/-- A window update has 13 bytes. -/
theorem update_size (window : DummyWindow) (id : Nat) :
    ((window.update id).1.map OutFrame.size).getD 0 = (if window.needUpdate then 13 else 0) ∧
      outSize (window.update id).1.toList = (if window.needUpdate then 13 else 0) := by
  unfold DummyWindow.update
  split <;> exact ⟨rfl, rfl⟩

/-- The plan of a call whose encoder takes fields. -/
theorem plan_of_encoded {buffers : List Buffer} {count : Nat} {after : Encoder}
    (listed : stream.request.headerList ≠ [])
    (encoded : stream.opened.encodeHeaders lowerBound encoder limit = .ok (buffers, count, after)) :
    stream.plan lowerBound encoder limit =
      { update := if stream.localWindow.needUpdate then 13 else 0
        header := if count = 0 then 0 else headerSize + (buffers.flatMap Buffer.data).length
        closes := stream.isContinuation && count ≠ 0 &&
          (stream.request.commitHeaders count).headerList = [] && stream.request.bodyList = []
        follows := (stream.request.commitHeaders count).headerList = [] &&
          stream.request.size ≠ 0 } := by
  have same : stream.encodeHeaders lowerBound encoder limit = .ok (buffers, count, after) := encoded
  rw [plan, taken, if_neg listed, same]
  rfl

/-- What is sent and counted is the plan. -/
structure FollowsPlan (plan : Plan) (window : Nat) (turn : Turn) : Prop where
  used : turn.used = plan.header
  requests : requestFrames turn.out = turn.out
  sizes : turn.out.map OutFrame.size = plan.frames
  follows : (turn.stream.request.headerList = [] && turn.stream.request.size ≠ 0) = plan.follows
  remoteWindow : turn.stream.remoteWindow = window

/-- `prepare_headers` does what is planned. -/
theorem HeadersPrepared.followsPlan (listed : stream.request.headerList ≠ [])
    (prepared : HeadersPrepared lowerBound stream.opened encoder limit turn) :
    FollowsPlan (stream.plan lowerBound encoder limit) stream.remoteWindow turn := by
  have framed (block : Nat) : headerSize + block ≠ 0 := by
    unfold headerSize
    omega
  cases prepared with
  | nothing encoded =>
      rw [plan_of_encoded listed encoded]
      refine ⟨rfl, rfl, ?_, rfl, rfl⟩
      simp only [Plan.frames, ne_eq, not_true_eq_false, decide_false, Bool.and_false,
        Bool.false_and, Bool.false_eq_true, ↓reduceIte, List.append_nil, List.map_nil]
  | headers encoded some first =>
      have opened : stream.isContinuation = false := first
      rw [plan_of_encoded listed encoded]
      refine ⟨(if_neg some).symm, rfl, ?_, rfl, rfl⟩
      simp only [Plan.frames, if_neg some, opened, Bool.false_and, Bool.false_eq_true, ↓reduceIte,
        List.append_nil, if_neg (framed _)]
      rfl
  | @continuation buffers count after encoded some later more =>
      rw [plan_of_encoded listed encoded]
      have unclosed : ¬ (stream.isContinuation && count ≠ 0 &&
          (stream.request.commitHeaders count).headerList = [] &&
          stream.request.bodyList = []) = true := by
        simp only [Bool.and_eq_true, decide_eq_true_eq, not_and]
        exact fun ⟨_, all⟩ bodyless => more ⟨all, bodyless⟩
      refine ⟨(if_neg some).symm, rfl, ?_, rfl, rfl⟩
      simp only [Plan.frames, if_neg some, if_neg unclosed, List.append_nil, if_neg (framed _)]
      rfl
  | closing encoded some later all bodyless =>
      rw [plan_of_encoded listed encoded]
      refine ⟨(if_neg some).symm, rfl, ?_, rfl, rfl⟩
      have continues : stream.isContinuation = true := later
      have last : (stream.request.commitHeaders _).headerList = [] := all
      have empty : stream.request.bodyList = [] := bodyless
      simp only [Plan.frames, continues, some, last, empty, if_neg (framed _), Bool.true_and,
        ne_eq, not_false_eq_true, decide_true, ↓reduceIte]
      rfl

/-- A call without header fields plans no frame for them. -/
theorem plan_of_headerless (none : stream.request.headerList = []) :
    stream.plan lowerBound encoder limit =
      { update := if stream.localWindow.needUpdate then 13 else 0
        header := 0
        closes := false
        follows := stream.request.size ≠ 0 } := by
  rw [plan, taken, if_pos none]
  simp only [Request.commitHeaders, List.drop_zero, none, ne_eq, not_true_eq_false, decide_false,
    Bool.and_false, Bool.false_and, decide_true, Bool.true_and, ↓reduceIte]

/-- A call whose encoder throws gets no further than the window update. -/
theorem plan_of_failed {failure : Failure} (listed : stream.request.headerList ≠ [])
    (failed : stream.encodeHeaders lowerBound encoder limit = .error failure) :
    stream.plan lowerBound encoder limit =
      { update := if stream.localWindow.needUpdate then 13 else 0
        header := 0
        closes := false
        follows := false } := by
  rw [plan, taken, if_neg listed, failed]
  simp only [Request.commitHeaders, List.drop_zero, listed, ne_eq, not_true_eq_false, decide_false,
    Bool.and_false, Bool.false_and, ↓reduceIte]

/-- A window update takes 13 bytes at most. -/
theorem plan_update_le : (stream.plan lowerBound encoder limit).update ≤ 13 := by
  change (if stream.localWindow.needUpdate then 13 else 0) ≤ 13
  split <;> omega

/-- What the header phase counts and sends is planned. -/
structure HeadersPlanned (plan : Plan) (window : Nat) (turn : Turn) : Prop where
  used : turn.used = plan.used
  frames : (requestFrames turn.out).map OutFrame.size = plan.frames
  size : outSize turn.out = plan.update + plan.frames.sum
  follows : (turn.stream.request.headerList = [] && turn.stream.request.size ≠ 0) = plan.follows
  remoteWindow : turn.stream.remoteWindow = window

private theorem HeadersPlanned.ready {plan : Plan} {window : Nat}
    (planned : HeadersPlanned plan window turn) (limit : Nat) :
    bodyReady turn limit = plan.sendsBody limit := by
  rw [bodyReady, planned.follows, planned.used, Plan.sendsBody]

private theorem headerPhase_plan (sent : stream.headerPhase lowerBound encoder limit = .ok turn) :
    HeadersPlanned (stream.plan lowerBound encoder limit) stream.remoteWindow turn := by
  obtain ⟨headers, prepared, rfl⟩ := headerPhase_cases sent
  obtain ⟨counted, size⟩ := update_size stream.localWindow stream.httpId
  have followed : FollowsPlan (stream.plan lowerBound encoder limit) stream.remoteWindow
      headers := by
    rcases prepared with ⟨listed, prepared⟩ | ⟨none, rfl⟩
    · exact prepared.followsPlan listed
    · rw [plan_of_headerless none]
      refine ⟨rfl, rfl, rfl, ?_, rfl⟩
      simp only [opened, none, decide_true, Bool.true_and]
      rfl
  have update : (stream.plan lowerBound encoder limit).update =
      if stream.localWindow.needUpdate then 13 else 0 := rfl
  have used := followed.used
  refine ⟨?_, ?_, ?_, followed.follows, followed.remoteWindow⟩
  · rw [counted, used, Plan.used, update]
  · rw [requestFrames_append, requestFrames_update, List.nil_append, followed.requests,
      followed.sizes]
  · rw [outSize_append, size, update, outSize_eq, followed.sizes]

/-- The body phase adds nothing to what is counted. If it goes on with the body, it sends one
DATA frame. -/
theorem bodyPhase_spec {after : Turn} (sent : bodyPhase turn limit = .ok after) :
    after.used = turn.used ∧ after.stream.remoteWindow = turn.stream.remoteWindow ∧
      (bodyReady turn limit = false ∧ after.stream = turn.stream ∧ after.out = turn.out ∨
        bodyReady turn limit = true ∧ ∃ stream frame used,
          turn.stream.prepareBody (sizeSub limit turn.used) = .ok (stream, frame, used) ∧
          after.stream = stream ∧ after.out = turn.out ++ [frame]) := by
  unfold bodyPhase at sent
  split at sent
  · rename_i ready
    obtain ⟨⟨stream, frame, used⟩, prepared, same⟩ := Outcome.bind_eq_ok.mp sent
    obtain ⟨copied, filled, withBody⟩ := Outcome.bind_eq_ok.mp prepared
    cases withBody
    cases same
    exact ⟨rfl, rfl, .inr ⟨ready, _, _, _, prepared, rfl, rfl⟩⟩
  · rename_i rest
    cases sent
    exact ⟨rfl, rfl, .inl ⟨Bool.eq_false_of_not_eq_true rest, rfl, rfl⟩⟩

/-- The plan of a call of `get_tx_data`. -/
def sendPlan (lowerBound : LowerBound) (stream : Stream) (encoder : Encoder) (limit : Nat) : Plan :=
  stream.plan lowerBound encoder (min limit stream.remoteWindow)

/-- What a call of `get_tx_data` counts and sends: the frame that ends a half-closed stream,
nothing, or what is planned and the body. -/
theorem getTxData_plan (sent : stream.getTxData lowerBound encoder limit = .ok turn) :
    stream.httpState = .halfClosed ∧ turn.used = 13 ∧ outSize turn.out = 13 ∧
        requestFrames turn.out = [] ∨
      stream.httpState ≠ .halfClosed ∧ ¬ stream.Sends limit ∧ turn.used = 0 ∧ turn.out = [] ∧
        turn.stream.remoteWindow = stream.remoteWindow ∨
      stream.Sends limit ∧ turn.used = (stream.sendPlan lowerBound encoder limit).used ∧
        turn.stream.remoteWindow = sizeSub stream.remoteWindow turn.used ∧
        ∃ headers : Turn,
          { stream with isScheduled := false }.headerPhase lowerBound encoder
            (min limit stream.remoteWindow) = .ok headers ∧
          ((stream.sendPlan lowerBound encoder limit).sendsBody
                (min limit stream.remoteWindow) = false ∧ turn.out = headers.out ∨
            (stream.sendPlan lowerBound encoder limit).sendsBody
                (min limit stream.remoteWindow) = true ∧ ∃ after frame used,
              headers.stream.prepareBody (sizeSub (min limit stream.remoteWindow) turn.used) =
                .ok (after, frame, used) ∧
              turn.out = headers.out ++ [frame]) := by
  rcases getTxData_spec sent with
    ⟨half, rfl⟩ | ⟨half, small, rfl⟩ | ⟨half, large, headers, body, first, second, rfl⟩
  · exact .inl ⟨half, rfl, rfl, rfl⟩
  · exact .inr (.inl ⟨half, fun sends => Nat.not_lt.mpr small sends.2, rfl, rfl, rfl⟩)
  · have planned := headerPhase_plan first
    obtain ⟨used, kept, rest⟩ := bodyPhase_spec second
    refine .inr (.inr ⟨⟨half, large⟩, used.trans planned.used, ?_, headers, first, ?_⟩)
    · simp only
      rw [kept, planned.remoteWindow]
    · rw [planned.ready] at rest
      rw [used]
      rcases rest with ⟨none, _, same⟩ | ⟨body, after, frame, used, filled, _, same⟩
      · exact .inl ⟨none, same⟩
      · exact .inr ⟨body, after, frame, used, filled, same⟩

/-- **Transmit accounting.** A call returns the number of bytes it has sent and takes just as
many from the window of the stream exactly if, when it gets to send anything of the stream,
it sends no DATA frame and what it sends instead fits in the window. -/
theorem accounting_exact_iff (sent : stream.getTxData lowerBound encoder limit = .ok turn) :
    turn.used = outSize turn.out ∧
        (stream.httpState ≠ .halfClosed →
          turn.stream.remoteWindow + turn.used = stream.remoteWindow) ↔
      (stream.Sends limit →
        (stream.sendPlan lowerBound encoder limit).closes = false ∧
        (stream.sendPlan lowerBound encoder limit).sendsBody (min limit stream.remoteWindow) =
          false ∧
        (stream.sendPlan lowerBound encoder limit).used ≤ stream.remoteWindow) := by
  rcases getTxData_plan sent with ⟨half, used, size, _⟩ | ⟨half, idle, used, none, window⟩ |
    ⟨sends, used, window, headers, first, rest⟩
  · exact iff_of_true ⟨used.trans size.symm, fun other => absurd half other⟩
      fun sends => absurd half sends.1
  · rw [used, none, window]
    exact iff_of_true ⟨rfl, fun _ => rfl⟩ fun sends => absurd sends idle
  · have size := (headerPhase_plan first).size
    have total : outSize headers.out = turn.used +
        if (stream.sendPlan lowerBound encoder limit).closes then headerSize else 0 := by
      rw [size, Plan.frames_sum, used]
      exact (Nat.add_assoc _ _ _).symm
    rw [window, forall_prop_of_true sends.1, forall_prop_of_true sends, ← used,
      sizeSub_add_eq_iff, ← and_assoc]
    refine and_congr_left fun _ => ?_
    rcases rest with ⟨none, same⟩ | ⟨body, after, frame, _, filled, same⟩
    · rw [same, total, none]
      cases (stream.sendPlan lowerBound encoder limit).closes with
      | false => exact iff_of_true rfl ⟨rfl, rfl⟩
      | true => exact iff_of_false (Nat.ne_of_lt (Nat.lt_add_of_pos_right (by decide))) nofun
    · rw [same, outSize_append, total, body]
      refine iff_of_false (Nat.ne_of_lt ?_) nofun
      have counted : outSize [frame] = headerSize + frame.payload.length := outSize_eq [frame]
      rw [counted, Nat.add_assoc]
      refine Nat.lt_add_of_pos_right ?_
      unfold headerSize
      omega

/-- A stream whose request has the body given. The server has a window of 100 bytes. -/
def sampleUpload (m : Method) (slices : List Bytes) : Stream :=
  create 0x1000000 100 65535 (Client.sampleRequest m [] slices)

/-- The HEADERS frame of a request without a body is counted. -/
theorem accounting_exact_get :
    ∃ turn, (sampleUpload .get []).getTxData .linear .create 100 = .ok turn ∧ turn.used = 15 ∧
      outSize turn.out = 15 ∧ turn.stream.remoteWindow + 15 = 100 := by
  have passes : ((sampleUpload .get []).getTxData .linear .create 100).toOption.any
      (fun turn => decide (turn.used = 15)) = true := by
    decide +kernel
  obtain ⟨turn, sent, checks⟩ := Outcome.exists_ok_of_any passes
  have used : turn.used = 15 := of_decide_eq_true checks
  obtain ⟨all, window⟩ := (accounting_exact_iff sent).mpr (by decide +kernel)
  rw [used] at all window
  exact ⟨turn, sent, used, all.symm, window (by decide)⟩

/-- With a body of five bytes, a DATA frame of 14 bytes follows that is not counted. -/
theorem accounting_misses_body :
    ∃ turn, (sampleUpload .post [[1, 2, 3, 4, 5]]).getTxData .linear .create 100 = .ok turn ∧
      turn.used = 15 ∧ outSize turn.out = 29 ∧ turn.stream.remoteWindow = 85 := by
  have passes : ((sampleUpload .post [[1, 2, 3, 4, 5]]).getTxData .linear .create 100).toOption.any
      (fun turn => decide (turn.used = 15 ∧ outSize turn.out = 29 ∧
        turn.stream.remoteWindow = 85)) = true := by
    decide +kernel
  obtain ⟨turn, sent, checks⟩ := Outcome.exists_ok_of_any passes
  exact ⟨turn, sent, of_decide_eq_true checks⟩

/-! ## Subtractions -/

/-- The subtraction in `prepare_headers`: from the limit, the size of one frame header or of
two. -/
def headerSubtractions (stream : Stream) (limit : Nat) : List (Nat × Nat) :=
  if stream.request.headerList = [] then []
  else [(limit, if stream.isContinuation then 2 * headerSize else headerSize)]

/-- The subtraction with which `get_tx_data` goes on to the body, and those in
`prepare_body`. -/
def bodySubtractions (turn : Turn) (limit : Nat) : List (Nat × Nat) :=
  if turn.stream.request.headerList = [] && turn.stream.request.size ≠ 0 then
    (limit, turn.used) ::
      if bodyReady turn limit then
        [(turn.stream.request.size, turn.stream.sendBodyOffset),
          (sizeSub limit turn.used, headerSize)]
      else []
  else []

/-- The subtractions of a call of `get_tx_data`, in the order in which they are made: the
last is that from the window. -/
def subtractions (lowerBound : LowerBound) (stream : Stream) (encoder : Encoder) (limit : Nat) :
    List (Nat × Nat) :=
  if stream.Sends limit then
    stream.headerSubtractions (min limit stream.remoteWindow) ++
      match { stream with isScheduled := false }.headerPhase lowerBound encoder
          (min limit stream.remoteWindow) with
      | .error _ => []
      | .ok headers =>
          bodySubtractions headers (min limit stream.remoteWindow) ++
            match bodyPhase headers (min limit stream.remoteWindow) with
            | .error _ => []
            | .ok body => [(body.stream.remoteWindow, body.used)]
  else []

/-- No subtraction of the call goes below zero, and no frame of the request is longer than
the limit. -/
def WrapFree (lowerBound : LowerBound) (stream : Stream) (encoder : Encoder) (limit : Nat) : Prop :=
  (∀ operands ∈ stream.subtractions lowerBound encoder limit, operands.2 ≤ operands.1) ∧
    ∀ turn ∈ (stream.getTxData lowerBound encoder limit).toOption,
      ∀ frame ∈ requestFrames turn.out, frame.size ≤ limit

instance (lowerBound : LowerBound) (stream : Stream) (encoder : Encoder) (limit : Nat) :
    Decidable (stream.WrapFree lowerBound encoder limit) :=
  inferInstanceAs (Decidable (_ ∧ _))

/-- A call does not continue a header block with 17 bytes. If it sends header fields, their
frame fits in the limit, and together with the window update in the window; if the body
comes next, in both. -/
def FitsLimit (lowerBound : LowerBound) (stream : Stream) (encoder : Encoder) (limit : Nat) :
    Prop :=
  stream.Sends limit →
    (stream.request.headerList ≠ [] → stream.isContinuation = true →
      min limit stream.remoteWindow ≠ 17) ∧
    ((stream.sendPlan lowerBound encoder limit).header ≠ 0 →
      (stream.sendPlan lowerBound encoder limit).header ≤ limit ∧
      (stream.sendPlan lowerBound encoder limit).used ≤
        if (stream.sendPlan lowerBound encoder limit).follows then min limit stream.remoteWindow
        else stream.remoteWindow)

instance (lowerBound : LowerBound) (stream : Stream) (encoder : Encoder) (limit : Nat) :
    Decidable (stream.FitsLimit lowerBound encoder limit) :=
  inferInstanceAs (Decidable (_ → _))

/-- When a call sends, the subtraction in `prepare_headers` wraps only for 17 bytes. -/
theorem headerSubtractions_iff (large : 16 < limit) :
    (∀ operands ∈ stream.headerSubtractions limit, operands.2 ≤ operands.1) ↔
      (stream.request.headerList ≠ [] → stream.isContinuation = true → limit ≠ 17) := by
  unfold headerSubtractions headerSize
  split
  · rename_i none
    exact iff_of_true nofun fun listed => absurd none listed
  · rename_i listed
    rw [List.forall_mem_singleton, forall_prop_of_true listed]
    cases stream.isContinuation with
    | false => exact iff_of_true (by simp only [Bool.false_eq_true, ↓reduceIte]; omega) nofun
    | true =>
        simp only [↓reduceIte, forall_const]
        omega

/-- The condition, with what each subtraction takes. -/
theorem fitsLimit_iff (sends : stream.Sends limit) :
    stream.FitsLimit lowerBound encoder limit ↔
      (∀ operands ∈ stream.headerSubtractions (min limit stream.remoteWindow),
          operands.2 ≤ operands.1) ∧
        (stream.sendPlan lowerBound encoder limit).header ≤ limit ∧
        (stream.sendPlan lowerBound encoder limit).used ≤ stream.remoteWindow ∧
        ((stream.sendPlan lowerBound encoder limit).follows = true →
          (stream.sendPlan lowerBound encoder limit).used ≤ min limit stream.remoteWindow) := by
  have large := sends.2
  have update : (stream.sendPlan lowerBound encoder limit).update ≤ 13 := plan_update_le
  rw [FitsLimit, forall_prop_of_true sends, headerSubtractions_iff large]
  refine and_congr_right fun _ => ?_
  unfold Plan.used
  cases (stream.sendPlan lowerBound encoder limit).follows with
  | false =>
      simp only [Bool.false_eq_true, ↓reduceIte, IsEmpty.forall_iff, and_true]
      omega
  | true =>
      simp only [↓reduceIte, forall_const]
      omega

/-- A DATA frame of `prepare_body` is not longer than its argument allows. -/
theorem prepareBody_size {argument used : Nat} {after : Stream} {frame : OutFrame}
    (filled : stream.prepareBody argument = .ok (after, frame, used)) :
    frame.size ≤ headerSize + sizeSub argument headerSize := by
  have defined : ¬ (stream.request.bodyList = [] ∨
      stream.unsent.length < (stream.dataFrame argument).2) := by
    intro short
    rw [prepareBody_undefined short] at filled
    cases filled
  rw [not_or, Nat.not_lt] at defined
  obtain ⟨_, sent, _⟩ := prepareBody_ok defined.1 defined.2
  cases filled.symm.trans sent
  rw [OutFrame.size, List.length_take]
  refine Nat.add_le_add_left (Nat.le_trans (Nat.min_le_left _ _) ?_) _
  exact Nat.le_trans (Nat.mod_le _ _) (Nat.min_le_left _ _)

/-- All frames of the header block are within a limit if the one with the fields is. -/
theorem Plan.frames_le_iff (plan : Plan) (large : headerSize ≤ limit) :
    (∀ size ∈ plan.frames, size ≤ limit) ↔ plan.header ≤ limit := by
  have first : (∀ size ∈ if plan.header = 0 then [] else [plan.header], size ≤ limit) ↔
      plan.header ≤ limit := by
    split
    · rename_i none
      exact iff_of_true nofun (none ▸ Nat.zero_le _)
    · exact List.forall_mem_singleton
  have last : ∀ size ∈ if plan.closes then [headerSize] else [], size ≤ limit := by
    split
    · exact List.forall_mem_singleton.mpr large
    · exact nofun
  rw [frames, List.forall_mem_append, first, and_iff_left last]

/-- When the offset is inside the body, only the bytes of the header block can make the
subtractions for the body wrap. -/
theorem bodySubtractions_iff {plan : Plan} {window : Nat}
    (planned : HeadersPlanned plan window turn)
    (inside : turn.stream.sendBodyOffset ≤ turn.stream.request.size) :
    (∀ operands ∈ bodySubtractions turn limit, operands.2 ≤ operands.1) ↔
      (plan.follows = true → plan.used ≤ limit) := by
  rw [bodySubtractions, planned.follows, planned.ready, planned.used]
  cases follows : plan.follows with
  | false => exact iff_of_true nofun nofun
  | true =>
      rw [if_pos rfl, List.forall_mem_cons, forall_prop_of_true rfl, and_iff_left_iff_imp]
      intro _
      split
      · rename_i ready
        rw [Plan.sendsBody, follows, Bool.true_and, decide_eq_true_eq] at ready
        simp only [List.forall_mem_cons, List.not_mem_nil, IsEmpty.forall_iff, implies_true,
          and_true]
        refine ⟨inside, Nat.le_trans ?_ ready⟩
        decide
      · exact nofun

/-- The frames of a turn are within the limit exactly if the one with the fields is, as long
as the header block leaves the body what it may send. -/
theorem frames_le_iff {headers body : Turn} {plan : Plan} {allowed window : Nat}
    (within : allowed ≤ limit) (large : headerSize ≤ limit)
    (planned : HeadersPlanned plan window headers)
    (fits : plan.follows = true → plan.used ≤ allowed)
    (second : bodyPhase headers allowed = .ok body) :
    (∀ frame ∈ requestFrames body.out, frame.size ≤ limit) ↔ plan.header ≤ limit := by
  have first : (∀ frame ∈ requestFrames headers.out, frame.size ≤ limit) ↔
      plan.header ≤ limit := by
    rw [← plan.frames_le_iff large, ← planned.frames, List.forall_mem_map]
  obtain ⟨_, _, ⟨_, _, same⟩ | ⟨ready, after, frame, used, filled, _, same⟩⟩ :=
    bodyPhase_spec second
  · rw [same, first]
  · rw [same, requestFrames_append, List.forall_mem_append, first, and_iff_left]
    rw [planned.ready, Plan.sendsBody, Bool.and_eq_true, decide_eq_true_eq] at ready
    rw [planned.used] at filled
    have left : sizeSub allowed plan.used = allowed - plan.used := sizeSub_of_le (fits ready.1)
    have size := prepareBody_size filled
    rw [left] at ready size
    rw [sizeSub_of_le (Nat.le_trans (by decide) ready.2)] at size
    intro other member
    rw [List.mem_singleton.mp (List.mem_of_mem_filter member)]
    unfold headerSize at ready size
    omega

/-- A call whose encoder throws has made no subtraction but the one for the encoder. -/
theorem fits_of_failed {failure : Failure} (sends : stream.Sends limit)
    (failed : { stream with isScheduled := false }.headerPhase lowerBound encoder
      (min limit stream.remoteWindow) = .error failure) :
    (stream.sendPlan lowerBound encoder limit).header ≤ limit ∧
      (stream.sendPlan lowerBound encoder limit).used ≤ stream.remoteWindow ∧
      ((stream.sendPlan lowerBound encoder limit).follows = true →
        (stream.sendPlan lowerBound encoder limit).used ≤ min limit stream.remoteWindow) := by
  obtain ⟨listed, failed⟩ := headerPhase_failed failed
  have planned : stream.sendPlan lowerBound encoder limit = _ := plan_of_failed listed failed
  have update : (stream.sendPlan lowerBound encoder limit).update ≤ 13 := plan_update_le
  have large := sends.2
  rw [planned] at update ⊢
  refine ⟨Nat.zero_le _, Nat.le_trans update ?_, nofun⟩
  omega

/-- The subtractions that follow the header phase. -/
theorem laterSubtractions_iff {headers : Turn} (sends : stream.Sends limit)
    (planned : HeadersPlanned (stream.sendPlan lowerBound encoder limit) stream.remoteWindow
      headers)
    (fits : (stream.sendPlan lowerBound encoder limit).follows = true →
      (stream.sendPlan lowerBound encoder limit).used ≤ min limit stream.remoteWindow)
    (first : { stream with isScheduled := false }.headerPhase lowerBound encoder
      (min limit stream.remoteWindow) = .ok headers) :
    ((∀ operands ∈ (match bodyPhase headers (min limit stream.remoteWindow) with
          | .error _ => []
          | .ok body => [(body.stream.remoteWindow, body.used)]), operands.2 ≤ operands.1) ∧
        ∀ turn ∈ (stream.getTxData lowerBound encoder limit).toOption,
          ∀ frame ∈ requestFrames turn.out, frame.size ≤ limit) ↔
      (stream.sendPlan lowerBound encoder limit).header ≤ limit ∧
        (stream.sendPlan lowerBound encoder limit).used ≤ stream.remoteWindow := by
  have large := sends.2
  cases second : bodyPhase headers (min limit stream.remoteWindow) with
  | error failure =>
      -- the body phase fails only after the subtraction that leads to it
      have ready : bodyReady headers (min limit stream.remoteWindow) = true := by
        unfold bodyPhase at second
        split at second
        · assumption
        · cases second
      rw [planned.ready, Plan.sendsBody, Bool.and_eq_true] at ready
      have le := fits ready.1
      have header : (stream.sendPlan lowerBound encoder limit).header ≤
          (stream.sendPlan lowerBound encoder limit).used := Nat.le_add_left _ _
      refine iff_of_true ⟨nofun, fun turn returned => ?_⟩ ⟨by omega, by omega⟩
      obtain ⟨_, _, same, returned, _⟩ :=
        (getTxData_eq_ok_iff sends).mp (Outcome.mem_toOption.mp returned)
      cases first.symm.trans same
      cases second.symm.trans returned
  | ok body =>
      obtain ⟨used, window, _⟩ := bodyPhase_spec second
      have within : headerSize ≤ limit := by
        unfold headerSize
        omega
      have sent := (getTxData_eq_ok_iff sends).mpr ⟨headers, body, first, second, rfl⟩
      rw [List.forall_mem_singleton, used, window, planned.used, planned.remoteWindow,
        ← frames_le_iff (Nat.min_le_left _ _) within planned fits second, and_comm]
      refine and_congr_left fun _ => ?_
      rw [sent]
      constructor
      · intro all
        have returned := all _ (Outcome.mem_toOption.mpr rfl)
        exact returned
      · intro all turn returned
        cases returned
        exact all

/-- When the offset is inside the body, the subtractions of a call do not wrap and its frames
stay within the limit exactly if its header block fits. -/
theorem wrapFree_iff_fitsLimit (inside : stream.sendBodyOffset ≤ stream.request.size) :
    stream.WrapFree lowerBound encoder limit ↔ stream.FitsLimit lowerBound encoder limit := by
  by_cases sends : stream.Sends limit
  · rw [fitsLimit_iff sends, WrapFree, subtractions, if_pos sends, List.forall_mem_append,
      and_assoc]
    refine and_congr_right fun _ => ?_
    cases first : { stream with isScheduled := false }.headerPhase lowerBound encoder
        (min limit stream.remoteWindow) with
    | error failure =>
        refine iff_of_true ⟨nofun, fun turn returned => ?_⟩ (fits_of_failed sends first)
        obtain ⟨_, _, same, _⟩ := (getTxData_eq_ok_iff sends).mp (Outcome.mem_toOption.mp returned)
        cases first.symm.trans same
    | ok headers =>
        have planned : HeadersPlanned (stream.sendPlan lowerBound encoder limit)
            stream.remoteWindow headers := by
          have planned := headerPhase_plan first
          exact planned
        obtain ⟨_, offset, size, _⟩ := headerPhase_body first
        have body := @bodySubtractions_iff (min limit stream.remoteWindow) _ _ _ planned
          (by rw [offset, size]; exact inside)
        refine Iff.trans ?_ (and_comm.trans and_assoc)
        simp only [List.forall_mem_append]
        rw [body, and_assoc]
        exact and_congr_right fun fits => laterSubtractions_iff sends planned fits first
  · refine iff_of_true ⟨?_, fun turn returned => ?_⟩ fun sent => absurd sent sends
    · rw [subtractions, if_neg sends]
      exact nofun
    · rcases getTxData_plan (Outcome.mem_toOption.mp returned) with
        ⟨_, _, _, none⟩ | ⟨_, _, _, none, _⟩ | ⟨sent, _⟩
      · rw [none]
        exact nofun
      · rw [none]
        exact nofun
      · exact absurd sent sends

/-! ## Reachable streams -/

/-- `prepare_body` takes slices from the front. -/
theorem copyBody_suffix {slices : List Bytes} {offset size : Nat} {copied : Copied}
    (filled : copyBody slices offset size = .ok copied) : copied.bodyList <:+ slices := by
  induction slices generalizing offset size copied with
  | nil => cases filled
  | cons slice slices ih =>
      unfold copyBody at filled
      simp only at filled
      split at filled
      · cases filled
        exact List.suffix_rfl
      · split at filled
        · cases filled
          exact List.suffix_cons _ _
        · obtain ⟨rest, copied, same⟩ := Outcome.bind_eq_ok.mp filled
          cases same
          exact (ih copied).trans (List.suffix_cons _ _)

/-- What is left of the body is not more than its size. -/
def Sized (stream : Stream) : Prop :=
  stream.request.bodyList.flatten.length ≤ stream.request.size

/-- The offset is inside the body. -/
theorem Sized.inside (sized : stream.Sized) : stream.sendBodyOffset ≤ stream.request.size := by
  refine Nat.le_trans stream.offsetInside (Nat.le_trans ?_ sized)
  cases stream.request.bodyList with
  | nil => exact Nat.le_refl 0
  | cons slice slices =>
      rw [List.headD_cons, List.flatten_cons, List.length_append]
      exact Nat.le_add_right _ _

/-- Only what a stream sends matters. -/
theorem Sized.congr {other : Stream} (sized : stream.Sized)
    (same : other.sending = stream.sending) : other.Sized := by
  have request : other.request = stream.request := congrArg Sending.request same
  rw [Sized, request]
  exact sized

/-- A stream that sends gets no more to send. -/
theorem Sized.getTxData (sized : stream.Sized)
    (sent : stream.getTxData lowerBound encoder limit = .ok turn) : turn.stream.Sized := by
  rcases getTxData_spec sent with
    ⟨_, rfl⟩ | ⟨_, _, rfl⟩ | ⟨_, _, headers, body, first, second, rfl⟩
  · exact sized
  · exact sized
  · obtain ⟨slices, _, size, _⟩ := headerPhase_body first
    have before : headers.stream.Sized := by
      rw [Sized, slices, size]
      exact sized
    change body.stream.Sized
    obtain ⟨_, _, ⟨_, same, _⟩ | ⟨_, after, frame, used, filled, same, _⟩⟩ := bodyPhase_spec second
    · exact same ▸ before
    · obtain ⟨copied, taken, withBody⟩ := Outcome.bind_eq_ok.mp filled
      cases withBody
      rw [same]
      obtain ⟨gone, parts⟩ := copyBody_suffix taken
      refine Nat.le_trans ?_ before
      rw [← parts, List.flatten_append, List.length_append]
      exact Nat.le_add_left _ _

end Stream

namespace Client

/-- What is left of a body is never more than its size. -/
theorem sized_kept (lowerBound : LowerBound) :
    Kept lowerBound (fun request => request.bodyList.flatten.length ≤ request.size)
      Stream.Sized where
  fresh _ _ _ _ sized := sized
  marked _ sized := sized
  receive stream received sized := sized.congr (Stream.receive_sending stream received)
  getTxData _ _ _ _ sized sent := sized.getTxData sent

/-- **No unsigned wrap.** For every stream that a client has in any run, and for every limit,
the subtractions of a call of `get_tx_data` do not wrap and its frames stay within the limit
exactly if the header block fits. -/
theorem wrapFree_iff (lowerBound : LowerBound) (events : List Event)
    (last : Machine.History Client Tx) (made : ∀ request, .send request ∈ events → request.Made)
    (ran : (machine lowerBound).run start events = .ok last) (ptr : Nat) (encoder : Encoder)
    (limit : Nat) :
    (last.state.registry.heap ptr).WrapFree lowerBound encoder limit ↔
      (last.state.registry.heap ptr).FitsLimit lowerBound encoder limit := by
  have sized := (sized_kept lowerBound).run (Nat.le_refl 0)
    (fun request member => Nat.le_of_eq (made request member).size_eq.symm) ran ptr
  exact Stream.wrapFree_iff_fitsLimit sized.inside

/-- A request with a body, sent to a server with the initial window of 65535 bytes. -/
def shortUpload : List Event := [.connected, .send (sampleRequest .post [] [[1, 2, 3, 4, 5]])]

/-- HEADERS and DATA of a short upload are sent without a wrap. -/
theorem wrapFree_shortUpload :
    ∃ last, (machine .linear).run start shortUpload = .ok last ∧
      (last.state.registry.heap 0).Sends 16384 ∧
      (last.state.registry.heap 0).WrapFree .linear last.state.encoder 16384 := by
  have passes : ((machine .linear).run start shortUpload).toOption.any (fun last =>
      decide ((last.state.registry.heap 0).Sends 16384 ∧
        (last.state.registry.heap 0).FitsLimit .linear last.state.encoder 16384)) = true := by
    decide +kernel
  obtain ⟨last, ran, checks⟩ := Outcome.exists_ok_of_any passes
  obtain ⟨sends, fits⟩ := of_decide_eq_true checks
  have made : ∀ request, .send request ∈ shortUpload → request.Made := by
    intro request member
    obtain rfl : request = sampleRequest .post [] [[1, 2, 3, 4, 5]] := by
      simpa [shortUpload] using member
    exact sampleRequest_made _ _ _
  exact ⟨last, ran, sends, (wrapFree_iff .linear shortUpload last made ran 0 _ _).mpr fits⟩

/-- The server has an initial window of 32 bytes, of which the HEADERS frame takes 15. -/
def seventeenLeft : List Event :=
  [.connected, frameRead 4 0 0 [0, 4, 0, 0, 0, 32], .getTxData,
    .send (sampleRequest .get [⟨ascii "custom", List.replicate 30 0x78, .default, by decide⟩] []),
    .getTxData]

/-- With 17 bytes left of the window, the header block is continued: the limit of the encoder
wraps, a CONTINUATION frame of 43 bytes is sent, and the window wraps as well. -/
theorem wraps_with_seventeen :
    ∃ last, (machine .linear).run start seventeenLeft = .ok last ∧
      (last.state.registry.heap 0).subtractions .linear last.state.encoder 20 =
        [(17, 18), (17, 43)] ∧
      ¬ (last.state.registry.heap 0).WrapFree .linear last.state.encoder 20 := by
  have passes : ((machine .linear).run start seventeenLeft).toOption.any (fun last =>
      decide ((last.state.registry.heap 0).subtractions .linear last.state.encoder 20 =
          [(17, 18), (17, 43)] ∧
        ¬ (last.state.registry.heap 0).WrapFree .linear last.state.encoder 20)) = true := by
    decide +kernel
  obtain ⟨last, ran, checks⟩ := Outcome.exists_ok_of_any passes
  exact ⟨last, ran, of_decide_eq_true checks⟩

end Client

end H2pp.Http2

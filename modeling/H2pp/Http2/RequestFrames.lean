import H2pp.Http2.Transmission

/-! # The frames of a request

A request is sent as a HEADERS frame, CONTINUATION frames and DATA frames. The last
frame of the header block carries END_HEADERS, and the last of the HEADERS and DATA
frames END_STREAM. The stream computes both flags at each call from what is left of
the header list and of the body.
-/

namespace H2pp.Http2

open Utils Hpack

/-- Whether END_HEADERS is set. -/
def OutFrame.endHeaders (frame : OutFrame) : Bool := frame.flags &&& Flags.endHeaders ≠ 0

/-- Whether END_STREAM is set. -/
def OutFrame.endStream (frame : OutFrame) : Bool := frame.flags &&& Flags.endStream ≠ 0

namespace Stream

/-- The frames that carry the request. -/
def requestFrames (frames : List OutFrame) : List OutFrame :=
  frames.filter fun frame =>
    frame.type = .headers || frame.type = .continuation || frame.type = .data

/-- The frames of the request are picked part by part. -/
@[simp] theorem requestFrames_append (first second : List OutFrame) :
    requestFrames (first ++ second) = requestFrames first ++ requestFrames second :=
  List.filter_append ..

/-- A window update is no part of the request. -/
@[simp] theorem requestFrames_update (window : DummyWindow) (id : Nat) :
    requestFrames (window.update id).1.toList = [] := by
  unfold DummyWindow.update
  split <;> rfl

/-- The frames of a complete request, with its flags. -/
inductive WellFormed : List OutFrame → Prop
  | intro {first : OutFrame} {rest body : List OutFrame}
      (headers : first.type = .headers)
      (continuations : ∀ frame ∈ rest, frame.type = .continuation)
      (data : ∀ frame ∈ body, frame.type = .data)
      (blockEnds : (first :: rest).map OutFrame.endHeaders =
        List.replicate rest.length false ++ [true])
      (streamEnds : (first :: body).map OutFrame.endStream =
        List.replicate body.length false ++ [true]) :
      WellFormed (first :: rest ++ body)

/-- The bytes of the body that have not been sent. -/
def Sending.unsent (part : Sending) : Bytes :=
  part.request.bodyList.flatten.drop part.sendBodyOffset

/-- How far a request has been sent: not at all, or up to some frame of its header
block or of its body. The last frame of each kind has its flag exactly if nothing of
the kind is left. While header fields are left, there is a body to follow. -/
inductive Progress (part : Sending) : List OutFrame → Prop
  | fresh (first : part.isContinuation = false) (listed : part.request.headerList ≠ [])
      (body : part.request.bodyList = [] ∨ part.unsent ≠ []) : Progress part []
  | started {first : OutFrame} {rest body : List OutFrame}
      (headers : first.type = .headers)
      (continuations : ∀ frame ∈ rest, frame.type = .continuation)
      (data : ∀ frame ∈ body, frame.type = .data)
      (blockFlags : (first :: rest).map OutFrame.endHeaders =
        List.replicate rest.length false ++ [decide (part.request.headerList = [])])
      (streamFlags : (first :: body).map OutFrame.endStream =
        List.replicate body.length false ++ [decide (part.unsent = [])])
      (unfinished : part.request.headerList ≠ [] →
        part.isContinuation = true ∧ part.unsent ≠ [] ∧ body = []) :
      Progress part (first :: rest ++ body)

/-- When all is sent, the request is complete. -/
theorem Progress.wellFormed {part : Sending} {frames : List OutFrame}
    (progress : Progress part frames) (listed : part.request.headerList = [])
    (left : part.unsent = []) : WellFormed frames := by
  cases progress with
  | fresh _ more _ => exact absurd listed more
  | started headers continuations data blockFlags streamFlags unfinished =>
      rw [listed, decide_eq_true rfl] at blockFlags
      rw [left, decide_eq_true rfl] at streamFlags
      exact .intro headers continuations data blockFlags streamFlags

/-- A frame appended to frames of which none has the flag. -/
theorem map_flag_append {flag : OutFrame → Bool} {first frame : OutFrame} {rest : List OutFrame}
    (before : (first :: rest).map flag = List.replicate rest.length false ++ [false]) :
    (first :: (rest ++ [frame])).map flag =
      List.replicate (rest ++ [frame]).length false ++ [flag frame] := by
  rw [← List.cons_append, List.map_append, before, List.length_append, List.length_singleton,
    ← List.replicate_succ']
  rfl

section Steps

variable {part next : Sending} {frames : List OutFrame} {frame : OutFrame}

private theorem unsent_of_bodyless (bodyless : part.request.bodyList = []) : part.unsent = [] := by
  rw [Sending.unsent, bodyless, List.flatten_nil, List.drop_nil]

/-- The HEADERS frame of a new request. -/
theorem Progress.headers (progress : Progress part frames)
    (listed : part.request.headerList ≠ []) (first : part.isContinuation = false)
    (type : frame.type = .headers)
    (endHeaders : frame.endHeaders = decide (next.request.headerList = []))
    (endStream : frame.endStream = decide (part.request.bodyList = []))
    (unsent : next.unsent = part.unsent)
    (unfinished : next.request.headerList ≠ [] →
      next.isContinuation = true ∧ part.request.bodyList ≠ []) :
    Progress next (frames ++ [frame]) := by
  cases progress with
  | started _ _ _ _ _ later => exact absurd (later listed).1 (Bool.eq_false_iff.mp first)
  | fresh _ _ body =>
      have flag : decide (part.request.bodyList = []) = decide (next.unsent = []) := by
        rw [unsent]
        refine decide_eq_decide.mpr ⟨unsent_of_bodyless, fun none => ?_⟩
        exact body.resolve_right fun some => some none
      refine @Progress.started _ frame [] [] type (fun _ member => nomatch member)
        (fun _ member => nomatch member) (congrArg ([·]) endHeaders)
        (congrArg ([·]) (endStream.trans flag)) fun more => ?_
      obtain ⟨later, some⟩ := unfinished more
      exact ⟨later, unsent ▸ body.resolve_left some, rfl⟩

/-- A CONTINUATION frame while header fields are left. -/
theorem Progress.continuation (progress : Progress part frames)
    (listed : part.request.headerList ≠ []) (later : part.isContinuation = true)
    (type : frame.type = .continuation)
    (endHeaders : frame.endHeaders = decide (next.request.headerList = []))
    (unsent : next.unsent = part.unsent) (continues : next.isContinuation = true) :
    Progress next (frames ++ [frame]) := by
  cases progress with
  | fresh first _ _ => exact absurd later (Bool.eq_false_iff.mp first)
  | @started first rest body headers continuations data blockFlags streamFlags unfinished =>
      obtain ⟨_, left, rfl⟩ := unfinished listed
      rw [decide_eq_false listed] at blockFlags
      rw [← unsent] at left streamFlags
      rw [List.append_nil, ← List.append_nil (first :: rest ++ [frame]), List.cons_append]
      refine .started headers (fun other member => ?_) data
        (endHeaders ▸ map_flag_append blockFlags) streamFlags fun _ => ⟨continues, left, rfl⟩
      rcases List.mem_append.mp member with earlier | last
      · exact continuations other earlier
      · rw [List.mem_singleton.mp last, type]

/-- A DATA frame after the header block while there is some of the body left. -/
theorem Progress.data (progress : Progress part frames)
    (listed : part.request.headerList = []) (left : part.unsent ≠ []) (type : frame.type = .data)
    (endStream : frame.endStream = decide (next.unsent = []))
    (unlisted : next.request.headerList = []) : Progress next (frames ++ [frame]) := by
  cases progress with
  | fresh _ more _ => exact absurd listed more
  | @started first rest body headers continuations data blockFlags streamFlags unfinished =>
      rw [decide_eq_false left] at streamFlags
      rw [decide_eq_true listed] at blockFlags
      rw [List.append_assoc]
      refine .started headers continuations (fun other member => ?_) ?_
        (endStream ▸ map_flag_append streamFlags) fun more => absurd unlisted more
      · rcases List.mem_append.mp member with earlier | last
        · exact data other earlier
        · rw [List.mem_singleton.mp last, type]
      · rw [decide_eq_true unlisted]
        exact blockFlags

end Steps

variable {lowerBound : LowerBound} {stream : Stream} {encoder : Encoder} {limit : Nat} {turn : Turn}
  {frames : List OutFrame}

/-- END_HEADERS is set when all fields have been encoded. -/
theorem blockFlags_endHeaders (request : Request) :
    decide (blockFlags request &&& Flags.endHeaders ≠ 0) = decide (request.headerList = []) ∧
      decide ((blockFlags request ||| Flags.endStream) &&& Flags.endHeaders ≠ 0) =
        decide (request.headerList = []) := by
  unfold blockFlags
  split
  · rename_i none
    simp only [none]
    decide
  · rename_i some
    simp only [some]
    decide

/-- The flags of a HEADERS frame. -/
theorem headersFlags_endHeaders (request : Request) (ends : Prop) [Decidable ends] :
    decide ((if ends then blockFlags request ||| Flags.endStream else blockFlags request) &&&
      Flags.endHeaders ≠ 0) = decide (request.headerList = []) := by
  split
  · exact (blockFlags_endHeaders request).2
  · exact (blockFlags_endHeaders request).1

private theorem blockFlags_endStream (request : Request) :
    decide (blockFlags request &&& Flags.endStream ≠ 0) = false ∧
      decide ((blockFlags request ||| Flags.endStream) &&& Flags.endStream ≠ 0) = true := by
  unfold blockFlags
  split <;> decide

/-- The outcome of `encode` takes all fields of the request, or none. -/
def TakesAll (request : Request) : Except Failure (List Buffer × Nat × Encoder) → Prop
  | .error _ => True
  | .ok (_, count, _) => count = 0 ∨ (request.commitHeaders count).headerList = []

instance (request : Request) : ∀ outcome, Decidable (TakesAll request outcome)
  | .error _ => isTrue trivial
  | .ok _ => inferInstanceAs (Decidable (_ ∨ _))

/-- The next frame takes all fields that are left, or none. -/
def HeadersFit (lowerBound : LowerBound) (stream : Stream) (encoder : Encoder) (limit : Nat) :
    Prop :=
  TakesAll stream.request (stream.encodeHeaders lowerBound encoder limit)

instance (lowerBound : LowerBound) (stream : Stream) (encoder : Encoder) (limit : Nat) :
    Decidable (HeadersFit lowerBound stream encoder limit) :=
  inferInstanceAs (Decidable (TakesAll _ _))

private theorem HeadersFit.all {count : Nat} {buffers : List Buffer} {after : Encoder}
    (fits : HeadersFit lowerBound stream encoder limit)
    (encoded : stream.encodeHeaders lowerBound encoder limit = .ok (buffers, count, after))
    (some : count ≠ 0) : (stream.request.commitHeaders count).headerList = [] := by
  rw [HeadersFit, encoded] at fits
  exact fits.resolve_left some

/-- `prepare_headers` goes on with the header block, if a request without a body fits
in its HEADERS frame. -/
theorem Progress.prepared (progress : Progress stream.sending frames)
    (listed : stream.request.headerList ≠ [])
    (fits : stream.request.bodyList = [] → HeadersFit lowerBound stream encoder limit)
    (prepared : HeadersPrepared lowerBound stream encoder limit turn) :
    Progress turn.stream.sending (frames ++ requestFrames turn.out) := by
  cases prepared with
  | nothing encoded => exact (List.append_nil frames).symm ▸ progress
  | @headers buffers count after encoded some first =>
      refine progress.headers listed first rfl (headersFlags_endHeaders _ _) ?_ rfl
        fun more => ⟨decide_eq_true more, ?_⟩
      · change decide ((ite _ _ _) &&& Flags.endStream ≠ 0) = decide (stream.request.bodyList = [])
        split
        · rename_i bodyless
          rw [(blockFlags_endStream _).2, decide_eq_true bodyless]
        · rename_i body
          rw [(blockFlags_endStream _).1, decide_eq_false body]
      · exact fun bodyless => more ((fits bodyless).all encoded some)
  | continuation encoded some later more =>
      exact progress.continuation listed later rfl (blockFlags_endHeaders _).1 rfl later
  | closing encoded some later all bodyless =>
      cases progress with
      | fresh first _ _ => exact absurd later (Bool.eq_false_iff.mp first)
      | started _ _ _ _ _ unfinished =>
          exact absurd (unsent_of_bodyless bodyless) (unfinished listed).2.1

/-- `prepare_body` goes on with the body, if the size it takes for the rest of the body
is the right one. -/
theorem Progress.body (progress : Progress stream.sending frames)
    (listed : stream.request.headerList = []) {argument : Nat} (left : 0 < stream.unsent.length)
    (right : (stream.bodySizes argument).1 = stream.unsent.length)
    (small : (stream.bodySizes argument).2 < 2 ^ 32) {after : Stream} {frame : OutFrame}
    {used : Nat} (filled : stream.prepareBody argument = .ok (after, frame, used)) :
    Progress after.sending (frames ++ [frame]) := by
  have size : (stream.dataFrame argument).2 = (stream.bodySizes argument).2 :=
    Nat.mod_eq_of_lt small
  have enough : (stream.bodySizes argument).2 ≤ stream.unsent.length :=
    right ▸ Nat.min_le_right _ _
  have some : stream.request.bodyList ≠ [] := by
    intro none
    rw [unsent, none, List.flatten_nil, List.drop_nil] at left
    exact absurd left (Nat.lt_irrefl 0)
  obtain ⟨_, sent, remaining, list, _⟩ := @prepareBody_ok stream argument some (size ▸ enough)
  cases filled.symm.trans sent
  have last : decide ((stream.bodySizes argument).2 = (stream.bodySizes argument).1) =
      decide (after.unsent = []) := by
    refine decide_eq_decide.mpr ?_
    rw [remaining, size, right, List.drop_eq_nil_iff]
    exact ⟨fun same => Nat.le_of_eq same.symm, fun le => Nat.le_antisymm enough le⟩
  refine progress.data listed (List.ne_nil_of_length_pos left) rfl (last ▸ ?_) (list.trans listed)
  change decide ((ite _ _ _) &&& Flags.endStream ≠ 0) = _
  split
  · rename_i same
    exact (decide_eq_true same).symm
  · rename_i other
    exact (decide_eq_false other).symm

/-- A step at which a request without a body fits in its HEADERS frame, and at which
the rest of the body is what `prepare_body` takes for it. -/
def RequestFits (lowerBound : LowerBound) (history : Machine.History Stream OutFrame) :
    Event → Prop
  | .receive _ => True
  | .send encoder limit =>
      (history.state.request.bodyList = [] → history.state.httpState ≠ .halfClosed →
        16 < min limit history.state.remoteWindow →
        HeadersFit lowerBound history.state encoder (min limit history.state.remoteWindow)) ∧
      ∀ argument ∈ history.state.bodyCall lowerBound encoder limit,
        0 < history.state.unsent.length ∧
        (history.state.bodySizes argument).1 = history.state.unsent.length ∧
        (history.state.bodySizes argument).2 < 2 ^ 32

instance (lowerBound : LowerBound) (history : Machine.History Stream OutFrame) :
    ∀ event, Decidable (RequestFits lowerBound history event)
  | .receive _ => isTrue trivial
  | .send _ _ => inferInstanceAs (Decidable (_ ∧ _))

variable {history next : Machine.History Stream OutFrame}

/-- The header phase goes on with the request. -/
theorem Progress.headerPhase (progress : Progress stream.sending frames)
    (fits : stream.request.bodyList = [] → HeadersFit lowerBound stream encoder limit)
    (sent : stream.headerPhase lowerBound encoder limit = .ok turn) :
    Progress turn.stream.sending (frames ++ requestFrames turn.out) := by
  obtain ⟨headers, prepared, same, _, out⟩ := headerPhase_spec sent
  rw [same, out, requestFrames_append, requestFrames_update, List.nil_append]
  rcases prepared with ⟨listed, prepared⟩ | ⟨_, rfl⟩
  · have opened : Progress stream.opened.sending frames := progress
    exact opened.prepared listed fits prepared
  · exact (List.append_nil frames).symm ▸ progress

/-- A step that fits goes on with the request. -/
theorem Progress.advance {event : Event}
    (progress : Progress history.state.sending (requestFrames history.emitted))
    (fits : RequestFits lowerBound history event)
    (taken : (machine lowerBound).advance history event = .ok next) :
    Progress next.state.sending (requestFrames next.emitted) := by
  obtain ⟨state, out, stepped, rfl⟩ := Machine.advance_eq_ok taken
  rw [requestFrames_append]
  cases event with
  | receive received =>
      cases stepped
      rw [receive_sending]
      exact (List.append_nil _).symm ▸ progress
  | send encoder limit =>
      obtain ⟨turn, sent, same⟩ := Outcome.bind_eq_ok.mp stepped
      cases same
      obtain ⟨headersFit, bodyFits⟩ := fits
      rcases getTxData_phases sent with ⟨same, out⟩ | ⟨half, large, headers, phase, rest⟩
      · have none : requestFrames turn.out = [] := by
          rcases out with out | ⟨_, out⟩ <;> (rw [out]; rfl)
        rw [same, none, List.append_nil]
        exact progress
      · have block := @Progress.headerPhase _ { history.state with isScheduled := false } _ _ _ _
          progress (fun bodyless => headersFit bodyless half large) phase
        rcases rest with
          ⟨same, out⟩ | ⟨argument, after, frame, used, called, listed, filled, same, out⟩
        · rw [same, out]
          exact block
        · obtain ⟨body, offset, size, id, _, _⟩ := headerPhase_body phase
          have unsent : headers.stream.unsent = history.state.unsent := by
            simp only [Stream.unsent, body, offset]
          have sizes : headers.stream.bodySizes argument = history.state.bodySizes argument := by
            unfold bodySizes
            rw [size, offset]
          have bodyFit := bodyFits argument called
          rw [← unsent, ← sizes] at bodyFit
          obtain ⟨left, right, small⟩ := bodyFit
          have single : requestFrames [frame] = [frame] := by
            simp only [requestFrames, List.filter_cons, (prepareBody_frame filled).1, decide_true,
              Bool.or_true, ↓reduceIte, List.filter_nil]
          rw [same, out, requestFrames_append, ← List.append_assoc, single]
          exact block.body listed left right small filled

/-- **Frames of a request.** A request is built with a URL, further header fields and
body slices that are not all empty. In every run that fits and drains the stream, its
frames are well formed. -/
theorem requestFrames_wellFormed (lowerBound : LowerBound) (id remoteSize localSize : Nat)
    {url : Url} {m : Method} {base : Request} (built : Request.create url m = .ok base)
    (fields : List HeaderField) (slices : List Bytes)
    (nonempty : slices = [] ∨ slices.flatten ≠ []) (events : List Event)
    (fits : (machine lowerBound).Along (RequestFits lowerBound)
      ⟨create id remoteSize localSize ((base.headers fields).bodies slices), []⟩ events)
    {last : Machine.History Stream OutFrame}
    (ran : (machine lowerBound).run
      ⟨create id remoteSize localSize ((base.headers fields).bodies slices), []⟩ events = .ok last)
    (listed : last.state.request.headerList = []) (left : last.state.unsent = []) :
    WellFormed (requestFrames last.emitted) := by
  obtain ⟨listedBase, bodyless, _⟩ := Request.create_spec built
  have body : ((base.headers fields).bodies slices).bodyList = slices := by
    rw [Request.bodies_bodyList, Request.headers, bodyless, List.nil_append]
  have start : Progress (create id remoteSize localSize
      ((base.headers fields).bodies slices)).sending [] := by
    refine .fresh rfl ?_ ?_
    · change ((base.headers fields).bodies slices).headerList ≠ []
      rw [Request.bodies_headerList]
      exact List.append_ne_nil_of_left_ne_nil listedBase fields
    · change ((base.headers fields).bodies slices).bodyList = [] ∨
        ((base.headers fields).bodies slices).bodyList.flatten.drop 0 ≠ []
      rw [body, List.drop_zero]
      exact nonempty
  have keeps : ∀ history event next,
      Progress history.state.sending (requestFrames history.emitted) →
      RequestFits lowerBound history event → (machine lowerBound).advance history event = .ok next →
      Progress next.state.sending (requestFrames next.emitted) :=
    fun _ _ _ progress fits taken => progress.advance fits taken
  exact (Machine.run_invariant keeps start fits ran).wellFormed listed left

/-- The URL `https://a/`. -/
def sampleUrl : Url := ⟨ascii "https", ascii "a", ascii "/", ascii "a", ascii "/"⟩

/-- A stream with a request to `sampleUrl` that has one more header field. -/
def sampleStream (base : Request) (slices : List Bytes) : Machine.History Stream OutFrame :=
  ⟨create 0x1000000 65535 65535
    ((base.headers [⟨ascii "custom", ascii "0123456789", .default, by decide⟩]).bodies slices), []⟩

/-- The run of such a stream. -/
def sampleRun (m : Method) (slices : List Bytes) (events : List Event) :
    Except Failure (Request × Machine.History Stream OutFrame) := do
  let base ← Request.create sampleUrl m
  let last ← (machine .linear).run (sampleStream base slices) events
  .ok (base, last)

private theorem sampleRun_eq_ok {m : Method} {slices : List Bytes} {events : List Event}
    {base : Request}
    {last : Machine.History Stream OutFrame} (ran : sampleRun m slices events = .ok (base, last)) :
    Request.create sampleUrl m = .ok base ∧
      (machine .linear).run (sampleStream base slices) events = .ok last := by
  obtain ⟨_, built, rest⟩ := Outcome.bind_eq_ok.mp ran
  obtain ⟨_, run, same⟩ := Outcome.bind_eq_ok.mp rest
  cases same
  exact ⟨built, run⟩

/-- Twelve bytes are uploaded after a header block of two frames. -/
theorem requestFrames_wellFormed_upload :
    ∃ base last, Request.create sampleUrl .post = .ok base ∧
      (machine .linear).run (sampleStream base [List.replicate 12 7])
        [.send .create 17, .send .create 40, .send .create 19, .send .create 19] = .ok last ∧
      (requestFrames last.emitted).length = 4 ∧ WellFormed (requestFrames last.emitted) := by
  have passes : (sampleRun .post [List.replicate 12 7]
      [.send .create 17, .send .create 40, .send .create 19, .send .create 19]).toOption.any
      (fun (base, last) => decide (
        (machine .linear).Along (RequestFits .linear) (sampleStream base [List.replicate 12 7])
          [.send .create 17, .send .create 40, .send .create 19, .send .create 19] ∧
        last.state.request.headerList = [] ∧ last.state.unsent = [] ∧
        (requestFrames last.emitted).length = 4)) = true := by
    decide +kernel
  obtain ⟨⟨base, last⟩, ran, checks⟩ := Outcome.exists_ok_of_any passes
  obtain ⟨built, run⟩ := sampleRun_eq_ok ran
  obtain ⟨fits, listed, left, count⟩ := of_decide_eq_true checks
  exact ⟨base, last, built, run, count, requestFrames_wellFormed .linear _ _ _ built _ _
    (.inr (by decide)) _ fits run listed left⟩

/-- A complete request ends its stream once. -/
theorem WellFormed.countP_endStream {frames : List OutFrame} (complete : WellFormed frames) :
    frames.countP (fun frame => frame.type ≠ .continuation && frame.endStream) = 1 := by
  cases complete with
  | @intro first rest body headers continuations data blockEnds streamEnds =>
      have none : rest.countP (fun frame => frame.type ≠ .continuation && frame.endStream) = 0 := by
        refine List.countP_eq_zero.mpr fun frame member => ?_
        rw [continuations frame member]
        exact Bool.false_ne_true
      have same : (first :: body).countP
          (fun frame => frame.type ≠ .continuation && frame.endStream) =
            (first :: body).countP OutFrame.endStream := by
        refine List.countP_congr fun frame member => ?_
        have type : frame.type ≠ .continuation := by
          rcases List.mem_cons.mp member with rfl | later
          · rw [headers]
            decide
          · rw [data frame later]
            decide
        rw [decide_eq_true type, Bool.true_and]
      have ends := congrArg (List.countP id) streamEnds
      rw [List.countP_map] at ends
      rw [List.cons_append, List.countP_cons, List.countP_append, none, Nat.zero_add,
        ← List.countP_cons, same]
      refine ends.trans ?_
      rw [List.countP_append, List.countP_replicate]
      rfl

/-- The same header block without a body: the HEADERS frame carries END_STREAM, and so
does the DATA frame after the CONTINUATION frame. -/
theorem requestFrames_two_endStreams :
    ∃ base last, Request.create sampleUrl .get = .ok base ∧
      (machine .linear).run (sampleStream base []) [.send .create 17, .send .create 40] = .ok last ∧
      last.state.request.headerList = [] ∧ last.state.unsent = [] ∧
      ¬ WellFormed (requestFrames last.emitted) := by
  have passes : (sampleRun .get [] [.send .create 17, .send .create 40]).toOption.any
      (fun (_, last) => decide (
        last.state.request.headerList = [] ∧ last.state.unsent = [] ∧
        (requestFrames last.emitted).countP
          (fun frame => frame.type ≠ .continuation && frame.endStream) = 2)) = true := by
    decide +kernel
  obtain ⟨⟨base, last⟩, ran, checks⟩ := Outcome.exists_ok_of_any passes
  obtain ⟨built, run⟩ := sampleRun_eq_ok ran
  obtain ⟨listed, left, count⟩ := of_decide_eq_true checks
  refine ⟨base, last, built, run, listed, left, fun complete => ?_⟩
  rw [complete.countP_endStream] at count
  exact absurd count (by decide)

end Stream

end H2pp.Http2

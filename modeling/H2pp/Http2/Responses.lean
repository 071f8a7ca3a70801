import H2pp.Http2.Stream

/-! # The response of a stream

The frames of a response go into the stream one by one, and END_STREAM gives what has
arrived so far to the handler. On a HEADERS frame, END_STREAM may come before the
CONTINUATION frames of the same header block; the response is then given away without
their fields.
-/

namespace H2pp.Http2

open Utils Hpack

namespace FrameAnalyzer

/-- The payload of a DATA frame without its padding. -/
def unpadded (frame : FrameAnalyzer) : Bytes :=
  let payload := frame.buffer.bytes.drop headerSize
  if frame.isPadded then (payload.drop 1).take (payload.length - 1 - frame.padLength) else payload

/-- The pad byte and the padding lie in the payload. -/
def ValidPadding (frame : FrameAnalyzer) : Prop :=
  frame.contentOffset 0 + frame.padLength ≤ frame.payloadSize

variable {frame : FrameAnalyzer}

/-- What `data()` points to is the payload without its padding. -/
theorem bytes_data (complete : frame.isComplete = true) (valid : frame.ValidPadding) :
    (frame.span frame.data).bytes = frame.unpadded := by
  have present : headerSize + frame.payloadSize ≤ frame.buffer.size := of_decide_eq_true complete
  have nothing_more : frame.buffer.size ≤ headerSize + frame.payloadSize := frame.adjusted
  have small : frame.payloadSize < 2 ^ 24 := payloadSize_lt
  have length : (frame.buffer.bytes.drop headerSize).length = frame.payloadSize := by
    rw [List.length_drop, Span.length_bytes]
    omega
  rw [ValidPadding] at valid
  have count : (frame.payloadSize + 2 ^ 64 - frame.contentOffset 0 - frame.padLength) % 2 ^ 64 =
      frame.payloadSize - frame.contentOffset 0 - frame.padLength := by omega
  have range : (frame.span frame.data).bytes =
      ((frame.buffer.bytes.drop headerSize).drop (frame.contentOffset 0)).take
        (frame.payloadSize - frame.contentOffset 0 - frame.padLength) := by
    rw [List.drop_drop, ← Span.bytes_subspan, ← count]
    refine Span.bytes_first _ _ ?_
    change (frame.payloadSize + 2 ^ 64 - frame.contentOffset 0 - frame.padLength) % 2 ^ 64 ≤
      frame.buffer.size - (headerSize + frame.contentOffset 0)
    omega
  rw [range, unpadded, length, contentOffset, padLength]
  cases frame.isPadded with
  | true => simp only [↓reduceIte, Nat.add_zero]
  | false =>
      simp only [Bool.false_eq_true, ↓reduceIte, Nat.add_zero, Nat.sub_zero, List.drop_zero]
      exact List.take_of_length_le (Nat.le_of_eq length)

private theorem length_unpadded_le : frame.unpadded.length ≤ frame.payloadSize := by
  have adjusted : frame.buffer.size ≤ headerSize + frame.payloadSize := frame.adjusted
  have length := frame.buffer.length_bytes
  unfold unpadded
  split
  · rw [List.length_take, List.length_drop, List.length_drop]
    omega
  · rw [List.length_drop]
    omega

end FrameAnalyzer

/-- Whether a frame with these flags is the last one of a response. -/
def endsStream (flags : UInt8) : Bool := flags &&& Flags.endStream ≠ 0

/-- A DATA frame of a response: it is complete, and its padding is valid. -/
structure BodyFrame where
  buff : Span
  frame : FrameAnalyzer
  complete : frame.isComplete = true
  valid : frame.ValidPadding

/-- A fragment of a header block: the fields it is decoded to, the flags and the size of
its frame. -/
structure Fragment where
  fields : List HeaderField
  flags : UInt8
  rawSize : Nat

/-- A response as a server sends it: a HEADERS frame, its CONTINUATION frames and DATA
frames. It is ended by the HEADERS frame or by the last DATA frame. -/
structure ServerResponse where
  headers : Fragment
  continuations : List Fragment
  body : List BodyFrame
  continued : ∀ fragment ∈ continuations, endsStream fragment.flags = false
  unended : ∀ data ∈ body.dropLast, endsStream data.frame.flags = false
  ends : endsStream headers.flags = true ∨
    ∃ last ∈ body.getLast?, endsStream last.frame.flags = true

namespace ServerResponse

/-- The frames in the order in which they arrive. -/
def received (server : ServerResponse) : List Stream.Received :=
  .headers server.headers.fields server.headers.flags server.headers.rawSize ::
    (server.continuations.map fun fragment =>
      .continuation fragment.fields fragment.flags fragment.rawSize) ++
    server.body.map fun data => .data data.buff data.frame

/-- The fields that come after the HEADERS frame. -/
def laterFields (server : ServerResponse) : List HeaderField :=
  server.continuations.flatMap Fragment.fields

/-- The payloads of the DATA frames without their padding. -/
def content (server : ServerResponse) : Bytes :=
  server.body.flatMap fun data => data.frame.unpadded

/-- The response holds what the server has sent. -/
structure Holds (server : ServerResponse) (response : Response) : Prop where
  headers : response.headerList = server.headers.fields ++ server.laterFields
  size : response.size = server.content.length
  body : response.copyBody response.size = server.content

end ServerResponse

namespace Response

/-- The size of a response is that of its blocks. -/
def Sized (response : Response) : Prop := response.size = (response.bodyBlocks.map Span.size).sum

/-- The bytes of the blocks. -/
def content (response : Response) : Bytes := response.bodyBlocks.flatMap Span.bytes

private theorem copyBody_all {response : Response} (sized : response.Sized) :
    response.copyBody response.size = response.content :=
  copyBlocks_all _ 0 _ (by rw [Nat.zero_add, sized])

end Response

namespace Stream

/-- The part of a stream that a response goes through: what has arrived, whether the
handler is waiting, and what it was called with. -/
structure Mailbox where
  response : Response
  waiting : Bool
  delivered : List (ErrorCode × Response)

def mailbox (stream : Stream) : Mailbox :=
  ⟨stream.response, stream.responseHandler, stream.delivered⟩

namespace Mailbox

/-- `finished` without an error. -/
def finished (mailbox : Mailbox) : Mailbox :=
  if mailbox.waiting then
    ⟨mailbox.response.movedFrom, false, mailbox.delivered ++ [(.success, mailbox.response)]⟩
  else mailbox

/-- Fields and a body that are put into the response, and the end of it. -/
def insert (mailbox : Mailbox) (change : Response → Response) (flags : UInt8) : Mailbox :=
  let mailbox := { mailbox with response := change mailbox.response }
  if endsStream flags then mailbox.finished else mailbox

/-- What a frame of a response does. -/
def receive (mailbox : Mailbox) : Received → Mailbox
  | .data _ frame => mailbox.insert
      (fun response => if frame.payloadSize ≠ 0 then response.insertBody frame else response)
      frame.flags
  | .headers header flags _ => mailbox.insert (·.insertHeaders header) flags
  | .continuation header flags _ => mailbox.insert (·.insertHeaders header) flags
  | _ => mailbox

end Mailbox

/-- The events that have nothing to do with the response. -/
def Event.isQuiet : Event → Bool
  | .send _ _ => true
  | .receive (.windowUpdate _) => true
  | .receive .schedule => true
  | _ => false

/-- A frame that may belong to a response. -/
def Received.isResponse : Received → Bool
  | .data _ _ => true
  | .headers _ _ _ => true
  | .continuation _ _ _ => true
  | _ => false

private theorem finished_mailbox (stream : Stream) :
    (stream.finished .success).mailbox = stream.mailbox.finished := by
  unfold finished Mailbox.finished
  cases waiting : stream.responseHandler <;> simp [mailbox, waiting]

/-- A stream puts the parts of a response into its mailbox. -/
theorem receive_mailbox (stream : Stream) {received : Received}
    (response : received.isResponse = true) :
    (stream.receive received).mailbox = stream.mailbox.receive received := by
  cases received with
  | data buff frame =>
      simp only [receive, onReceiveData, Mailbox.receive, Mailbox.insert, endsStream,
        decide_eq_true_eq]
      split <;> split
      · exact finished_mailbox _
      · exact finished_mailbox _
      · rfl
      · rfl
  | headers header flags rawSize =>
      simp only [receive, onReceiveHeaders, Mailbox.receive, Mailbox.insert, endsStream,
        decide_eq_true_eq]
      split
      · exact finished_mailbox _
      · rfl
  | continuation header flags rawSize =>
      simp only [receive, onReceiveContinuation, Mailbox.receive, Mailbox.insert, endsStream,
        decide_eq_true_eq]
      split
      · exact finished_mailbox _
      · rfl
  | _ => cases response

variable {lowerBound : LowerBound} {stream : Stream} {encoder : Encoder} {limit : Nat} {turn : Turn}

private theorem headerPhase_mailbox
    (sent : stream.headerPhase lowerBound encoder limit = .ok turn) :
    turn.stream.mailbox = stream.mailbox := by
  obtain ⟨headers, prepared, same, _, _⟩ := headerPhase_spec sent
  rw [same]
  rcases prepared with ⟨_, prepared⟩ | ⟨_, rfl⟩
  · cases prepared <;> rfl
  · rfl

/-- Sending does not touch the response. -/
theorem getTxData_mailbox (sent : stream.getTxData lowerBound encoder limit = .ok turn) :
    turn.stream.mailbox = stream.mailbox := by
  rcases getTxData_spec sent with
    ⟨_, rfl⟩ | ⟨_, _, rfl⟩ | ⟨_, _, headers, body, first, second, rfl⟩
  · rfl
  · rfl
  · have before := headerPhase_mailbox first
    rcases bodyPhase_stream second with same | ⟨copied, same⟩
    · simp only [mailbox, same]
      exact before
    · simp only [mailbox, same]
      exact before

/-- Neither does any other quiet event. -/
theorem step_mailbox {event : Event} {next : Stream} {out : List OutFrame}
    (stepped : (machine lowerBound).step stream event = .ok (next, out))
    (quiet : event.isQuiet = true) : next.mailbox = stream.mailbox := by
  cases event with
  | send encoder limit =>
      obtain ⟨turn, sent, same⟩ := Outcome.bind_eq_ok.mp stepped
      cases same
      exact getTxData_mailbox sent
  | receive received =>
      cases stepped
      cases received with
      | windowUpdate increment => rfl
      | schedule =>
          simp only [receive, checkTxData]
          split <;> rfl
      | _ => cases quiet

/-- Over a run, only the frames of the response change what has arrived. -/
theorem run_mailbox {events : List Event} {frames : List Received}
    (interleaved : (events.filter fun event => !event.isQuiet) = frames.map .receive)
    (responses : ∀ received ∈ frames, received.isResponse = true)
    {history last : Machine.History Stream OutFrame}
    (ran : (machine lowerBound).run history events = .ok last) :
    last.state.mailbox = frames.foldl Mailbox.receive history.state.mailbox := by
  induction events generalizing frames history with
  | nil =>
      cases ran
      rw [List.filter_nil, eq_comm, List.map_eq_nil_iff] at interleaved
      rw [interleaved]
      rfl
  | cons event events ih =>
      obtain ⟨next, taken, rest⟩ := Outcome.bind_eq_ok.mp ran
      obtain ⟨state, out, stepped, rfl⟩ := Machine.advance_eq_ok taken
      by_cases quiet : event.isQuiet = true
      · rw [List.filter_cons_of_neg (by simp [quiet])] at interleaved
        rw [ih interleaved responses rest, ← step_mailbox stepped quiet]
      · rw [List.filter_cons_of_pos (by simp [quiet])] at interleaved
        cases frames with
        | nil => cases interleaved
        | cons received frames =>
            rw [List.map_cons, List.cons.injEq] at interleaved
            obtain ⟨rfl, interleaved⟩ := interleaved
            cases stepped
            have first := receive_mailbox history.state (responses received List.mem_cons_self)
            rw [ih interleaved (fun later member =>
              responses later (List.mem_cons_of_mem _ member)) rest, List.foldl_cons, ← first]

/-- The handler was called with these responses, and is not waiting any more. -/
def Called (delivered : List (ErrorCode × Response)) (stream : Stream) : Prop :=
  stream.responseHandler = false ∧ stream.delivered = delivered

private theorem called_finished {delivered : List (ErrorCode × Response)} {ec : ErrorCode} :
    stream.Called delivered → (stream.finished ec).Called delivered := by
  intro called
  rw [finished, called.1]
  exact called

/-- A handler that was called is not called again, whatever happens to the stream. -/
theorem receive_called {delivered : List (ErrorCode × Response)} (called : stream.Called delivered)
    (received : Received) : (stream.receive received).Called delivered := by
  cases received with
  | data buff frame =>
      simp only [receive, onReceiveData]
      split <;> split
      · exact called_finished called
      · exact called_finished called
      · exact called
      · exact called
  | headers header flags rawSize =>
      simp only [receive, onReceiveHeaders]
      split
      · exact called_finished called
      · exact called
  | reset err => exact called_finished called
  | windowUpdate increment => exact called
  | continuation header flags rawSize =>
      simp only [receive, onReceiveContinuation]
      split
      · exact called_finished called
      · exact called
  | cleanup ec => exact called_finished called
  | timeout =>
      simp only [receive, onTimeout]
      split
      · exact called_finished called
      · exact called
  | schedule =>
      simp only [receive, checkTxData]
      split <;> exact called

/-- Once the handler was called, a run delivers nothing more. -/
theorem run_called {delivered : List (ErrorCode × Response)} {events : List Event}
    {history last : Machine.History Stream OutFrame} (called : history.state.Called delivered)
    (ran : (machine lowerBound).run history events = .ok last) :
    last.state.Called delivered := by
  refine @Machine.run_invariant _ _ _ _ _ (fun _ _ => True)
    (fun history => history.state.Called delivered) ?_ _ _ _ called
    (Machine.along_of_mem (fun _ _ => trivial) _) ran
  intro history event next called _ taken
  obtain ⟨state, out, stepped, rfl⟩ := Machine.advance_eq_ok taken
  cases event with
  | send encoder limit =>
      obtain ⟨turn, sent, same⟩ := Outcome.bind_eq_ok.mp stepped
      cases same
      have kept := getTxData_mailbox sent
      exact ⟨(congrArg Mailbox.waiting kept).trans called.1,
        (congrArg Mailbox.delivered kept).trans called.2⟩
  | receive received =>
      cases stepped
      exact receive_called called received

/-! ## The frames of one response -/

/-- What a DATA frame does to the response. -/
def insertData (data : BodyFrame) (response : Response) : Response :=
  if data.frame.payloadSize ≠ 0 then response.insertBody data.frame else response

/-- A response with these fields and this body. -/
structure Holding (response : Response) (headers : List HeaderField) (content : Bytes) : Prop where
  headers : response.headerList = headers
  content : response.content = content
  sized : response.Sized

namespace Holding

variable {response : Response} {headers : List HeaderField} {content : Bytes}

private theorem create : Holding .create [] [] := ⟨rfl, rfl, rfl⟩

private theorem insertHeaders (holding : Holding response headers content)
    (fields : List HeaderField) :
    Holding (response.insertHeaders fields) (headers ++ fields) content :=
  ⟨congrArg (· ++ fields) holding.headers, holding.content, holding.sized⟩

private theorem insertBody (holding : Holding response headers content) (data : BodyFrame) :
    Holding (insertData data response) headers (content ++ data.frame.unpadded) := by
  have bytes := FrameAnalyzer.bytes_data data.complete data.valid
  unfold insertData
  split
  · refine ⟨holding.headers, ?_, ?_⟩
    · rw [← bytes, ← holding.content, Response.content, Response.content, Response.insertBody,
        List.flatMap_append, List.flatMap_singleton]
    · rw [Response.Sized, Response.insertBody, List.map_append, List.sum_append,
        List.map_singleton, List.sum_singleton, holding.sized]
  · rename_i empty
    have small : data.frame.unpadded.length ≤ data.frame.payloadSize :=
      FrameAnalyzer.length_unpadded_le
    rw [Decidable.not_not.mp empty] at small
    rw [List.length_eq_zero_iff.mp (Nat.le_zero.mp small), List.append_nil]
    exact holding

/-- What is held is what `body_size` and `copy_body` give. -/
theorem size_eq (holding : Holding response headers content) :
    response.size = content.length := by
  rw [holding.sized, ← holding.content, Response.content, List.length_flatMap]
  exact congrArg List.sum (List.map_congr_left fun span _ => span.length_bytes.symm)

private theorem copyBody_eq (holding : Holding response headers content) :
    response.copyBody response.size = content :=
  (Response.copyBody_all holding.sized).trans holding.content

end Holding

/-- Frames that do not end the response are put into it one after another. -/
theorem foldl_insert {Item : Type} (change : Item → Response → Response) (flags : Item → UInt8)
    (mailbox : Mailbox) (items : List Item)
    (unended : ∀ item ∈ items, endsStream (flags item) = false) :
    items.foldl (fun mailbox item => mailbox.insert (change item) (flags item)) mailbox =
      { mailbox with
        response := items.foldl (fun response item => change item response) mailbox.response } := by
  induction items generalizing mailbox with
  | nil => rfl
  | cons item items ih =>
      have step : mailbox.insert (change item) (flags item) =
          { mailbox with response := change item mailbox.response } := by
        rw [Mailbox.insert, unended item List.mem_cons_self]
        rfl
      rw [List.foldl_cons, List.foldl_cons, step]
      exact ih _ fun later member => unended later (List.mem_cons_of_mem _ member)

namespace Holding

variable {response : Response} {headers : List HeaderField} {content : Bytes}

private theorem continuations (holding : Holding response headers content)
    (fragments : List Fragment) :
    Holding (fragments.foldl (fun response fragment => response.insertHeaders fragment.fields)
      response) (headers ++ fragments.flatMap Fragment.fields) content := by
  induction fragments generalizing response headers with
  | nil =>
      rw [List.flatMap_nil, List.append_nil]
      exact holding
  | cons fragment fragments ih =>
      rw [List.foldl_cons, List.flatMap_cons, ← List.append_assoc]
      exact ih (holding.insertHeaders fragment.fields)

private theorem body (holding : Holding response headers content) (frames : List BodyFrame) :
    Holding (frames.foldl (fun response data => insertData data response) response) headers
      (content ++ frames.flatMap fun data => data.frame.unpadded) := by
  induction frames generalizing response content with
  | nil =>
      rw [List.flatMap_nil, List.append_nil]
      exact holding
  | cons data frames ih =>
      rw [List.foldl_cons, List.flatMap_cons, ← List.append_assoc]
      exact ih (holding.insertBody data)

end Holding

/-- Once the handler was called, no frame makes a difference to it. -/
theorem foldl_called (mailbox : Mailbox) (called : mailbox.waiting = false)
    (frames : List Received) :
    (frames.foldl Mailbox.receive mailbox).waiting = false ∧
      (frames.foldl Mailbox.receive mailbox).delivered = mailbox.delivered := by
  have insert (mailbox : Mailbox) (called : mailbox.waiting = false)
      (change : Response → Response) (flags : UInt8) :
      (mailbox.insert change flags).waiting = false ∧
        (mailbox.insert change flags).delivered = mailbox.delivered := by
    rw [Mailbox.insert, Mailbox.finished, called]
    split <;> exact ⟨rfl, rfl⟩
  induction frames generalizing mailbox with
  | nil => exact ⟨called, rfl⟩
  | cons received frames ih =>
      have step : (mailbox.receive received).waiting = false ∧
          (mailbox.receive received).delivered = mailbox.delivered := by
        cases received with
        | data buff frame =>
            rw [Mailbox.receive]
            exact insert mailbox called _ _
        | headers header flags rawSize => exact insert mailbox called _ _
        | continuation header flags rawSize => exact insert mailbox called _ _
        | _ => exact ⟨called, rfl⟩
      rw [List.foldl_cons, ← step.2]
      exact ih _ step.1

/-- The body of a response that its HEADERS frame does not end: it is collected, and the
last DATA frame calls the handler. -/
theorem foldl_body {response : Response} {headers : List HeaderField}
    (holding : Holding response headers []) {body : List BodyFrame}
    (unended : ∀ data ∈ body.dropLast, endsStream data.frame.flags = false)
    (ends : ∃ last ∈ body.getLast?, endsStream last.frame.flags = true) :
    ∃ whole, Holding whole headers (body.flatMap fun data => data.frame.unpadded) ∧
      body.foldl (fun (mailbox : Mailbox) data =>
          mailbox.insert (insertData data) data.frame.flags) ⟨response, true, []⟩ =
        ⟨whole.movedFrom, false, [(.success, whole)]⟩ := by
  obtain ⟨last, found, ended⟩ := ends
  have split := List.dropLast_append_getLast? last found
  have held := holding.body (body.dropLast ++ [last])
  rw [split, List.nil_append] at held
  refine ⟨_, held, ?_⟩
  rw [← split, List.foldl_append, foldl_insert insertData _ _ _ unended, List.foldl_append,
    List.foldl_cons, List.foldl_nil, List.foldl_cons, List.foldl_nil, Mailbox.insert, ended]
  rfl

/-- The frames of a response, when the handler is waiting for one: what they call it with. -/
theorem foldl_received (server : ServerResponse) :
    ∃ response,
      (server.received.foldl Mailbox.receive ⟨.create, true, []⟩).waiting = false ∧
      (server.received.foldl Mailbox.receive ⟨.create, true, []⟩).delivered =
        [(.success, response)] ∧
      if endsStream server.headers.flags then
        response = Response.create.insertHeaders server.headers.fields
      else Holding response (server.headers.fields ++ server.laterFields) server.content := by
  rw [ServerResponse.received, List.cons_append, List.foldl_cons, Mailbox.receive, Mailbox.insert]
  cases ended : endsStream server.headers.flags with
  | true =>
      obtain ⟨waiting, delivered⟩ := foldl_called
        (Mailbox.finished ⟨Response.create.insertHeaders server.headers.fields, true, []⟩) rfl _
      exact ⟨_, waiting, delivered, rfl⟩
  | false =>
      have ends := server.ends.resolve_left (by rw [ended]; exact Bool.false_ne_true)
      have first := (Holding.create.insertHeaders server.headers.fields).continuations
        server.continuations
      obtain ⟨whole, held, collected⟩ := foldl_body first server.unended ends
      have before := foldl_insert (fun (fragment : Fragment) response =>
        response.insertHeaders fragment.fields) Fragment.flags
        ⟨Response.create.insertHeaders server.headers.fields, true, []⟩ server.continuations
        server.continued
      have all := (congrArg (fun mailbox => server.body.foldl (fun (mailbox : Mailbox) data =>
        mailbox.insert (insertData data) data.frame.flags) mailbox) before).trans collected
      refine ⟨whole, ?_, ?_, held⟩
      · rw [List.foldl_append, List.foldl_map, List.foldl_map]
        exact congrArg Mailbox.waiting all
      · rw [List.foldl_append, List.foldl_map, List.foldl_map]
        exact congrArg Mailbox.delivered all

/-- The handler was called once, with all that the server has sent, and nothing that may
still happen to the stream calls it again. -/
structure Answered (lowerBound : LowerBound) (server : ServerResponse)
    (history : Machine.History Stream OutFrame) : Prop where
  once : ∃ response, history.state.delivered = [(.success, response)] ∧ server.Holds response
  never : ∀ events last, (machine lowerBound).run history events = .ok last →
    last.state.delivered = history.state.delivered

/-- **The response.** A stream that receives a response, in between whatever it sends,
calls its handler once with the whole response exactly if END_STREAM does not come on
the HEADERS frame, or nothing of the response comes after that frame. -/
theorem response_answered_iff (server : ServerResponse) {events : List Event}
    (interleaved : (events.filter fun event => !event.isQuiet) = server.received.map .receive)
    {history last : Machine.History Stream OutFrame}
    (fresh : history.state.mailbox = ⟨.create, true, []⟩)
    (ran : (machine lowerBound).run history events = .ok last) :
    Answered lowerBound server last ↔
      (endsStream server.headers.flags = true → server.laterFields = [] ∧ server.content = []) := by
  have responses : ∀ received ∈ server.received, received.isResponse = true := by
    simp only [ServerResponse.received, List.mem_append, List.mem_cons, List.mem_map]
    rintro _ ((rfl | ⟨_, _, rfl⟩) | ⟨_, _, rfl⟩) <;> rfl
  have mailbox := run_mailbox interleaved responses ran
  rw [fresh] at mailbox
  obtain ⟨response, waiting, delivered, content⟩ := foldl_received server
  rw [← mailbox] at waiting delivered
  have never (more : List Event) (final : Machine.History Stream OutFrame)
      (later : (machine lowerBound).run last more = .ok final) :
      final.state.delivered = last.state.delivered :=
    (run_called ⟨waiting, rfl⟩ later).2
  have once : Answered lowerBound server last ↔ server.Holds response := by
    refine ⟨fun answered => ?_, fun holds => ⟨⟨response, delivered, holds⟩, never⟩⟩
    obtain ⟨other, called, holds⟩ := answered.once
    have same := called.symm.trans delivered
    cases same
    exact holds
  rw [once]
  cases ended : endsStream server.headers.flags with
  | false =>
      rw [ended, if_neg Bool.false_ne_true] at content
      exact iff_of_true ⟨content.headers, content.size_eq, content.copyBody_eq⟩
        fun set => nomatch set
  | true =>
      rw [ended, if_pos rfl] at content
      have headers := Holding.create.insertHeaders server.headers.fields
      rw [content]
      constructor
      · intro holds _
        refine ⟨List.self_eq_append_right.mp (headers.headers.symm.trans holds.headers), ?_⟩
        exact List.length_eq_zero_iff.mp (holds.size.symm.trans headers.size_eq)
      · intro nothing
        obtain ⟨noFields, noBody⟩ := nothing rfl
        refine ⟨?_, ?_, ?_⟩
        · rw [noFields, List.append_nil]
          exact headers.headers
        · rw [noBody]
          exact headers.size_eq
        · rw [noBody]
          exact headers.copyBody_eq

/-- The status of a response, and another field. -/
def statusField : HeaderField := ⟨ascii ":status", ascii "200", .default, by decide⟩

def serverField : HeaderField := ⟨ascii "server", ascii "a", .default, by decide⟩

/-- A DATA frame with the payload `ab`, padded with one byte, that ends the stream. -/
def paddedBody : BodyFrame where
  buff := Span.ofBytes (fun _ => 0) [0, 0, 4, 0, 9, 0, 0, 0, 1, 1, 0x61, 0x62, 0]
  frame := ⟨Span.ofBytes (fun _ => 0) [0, 0, 4, 0, 9, 0, 0, 0, 1, 1, 0x61, 0x62, 0], by decide,
    by decide⟩
  complete := by decide
  valid := by unfold FrameAnalyzer.ValidPadding; decide

/-- A response of all three kinds of frames, ended by its DATA frame. -/
def paddedResponse : ServerResponse where
  headers := ⟨[statusField], 0, 13⟩
  continuations := [⟨[serverField], Flags.endHeaders, 14⟩]
  body := [paddedBody]
  continued := by decide
  unended := by decide
  ends := .inr ⟨paddedBody, rfl, by decide⟩

/-- A response without a body, ended by its HEADERS frame before its CONTINUATION frame. -/
def splitResponse : ServerResponse where
  headers := ⟨[statusField], Flags.endStream, 13⟩
  continuations := [⟨[serverField], Flags.endHeaders, 14⟩]
  body := []
  continued := by decide
  unended := by decide
  ends := .inl rfl

/-- A new stream that waits for its response. -/
def freshStream : Machine.History Stream OutFrame := ⟨.create 1 100 100 ⟨[], [], 0⟩, []⟩

/-- A response in HEADERS, CONTINUATION and padded DATA frames. -/
theorem response_answered_padded :
    ∃ last, (machine .linear).run freshStream (paddedResponse.received.map .receive) = .ok last ∧
      Answered .linear paddedResponse last := by
  have ran : (machine .linear).run freshStream (paddedResponse.received.map .receive) = .ok _ :=
    rfl
  exact ⟨_, ran, (response_answered_iff paddedResponse rfl rfl ran).mpr
    fun ended => absurd ended (by decide)⟩

/-- The handler gets the fields of the HEADERS frame only. -/
theorem response_lacks_continuation :
    ∃ last, (machine .linear).run freshStream (splitResponse.received.map .receive) = .ok last ∧
      last.state.delivered.map (fun call => call.2.headerList) = [[statusField]] ∧
      ¬ Answered .linear splitResponse last := by
  refine ⟨_, rfl, by decide, fun answered => ?_⟩
  obtain ⟨response, called, holds⟩ := answered.once
  have same : response.headerList = [statusField] := by
    cases called
    rfl
  exact absurd (same.symm.trans holds.headers) (by decide)

end Stream

end H2pp.Http2

import H2pp.Http2.Commands
import H2pp.Http2.StreamIds

/-! # What goes over the wire

The client writes its preface and then frames, one after another. The length in the header
of every frame is that of its payload, so a peer that cuts the bytes by the lengths in the
headers gets the frames that were sent, and nothing is left over.
-/

namespace H2pp.Http2

open Utils Hpack

/-- The length in the header is that of the payload, if it fits into the header. -/
def OutFrame.Sized (frame : OutFrame) : Prop :=
  frame.payload.length < 2 ^ 24 → frame.length = frame.payload.length

namespace Stream

variable {lowerBound : LowerBound} {stream : Stream} {encoder : Encoder} {limit : Nat} {turn : Turn}

private theorem sized_block (frame : OutFrame) (block : Bytes)
    (length : frame.length = block.length % 2 ^ 24) :
    { frame with payload := block }.Sized :=
  fun short => length.trans (Nat.mod_eq_of_lt short)

private theorem update_sized (window : DummyWindow) (id : Nat) :
    ∀ frame ∈ (window.update id).1.toList, frame.Sized := by
  intro frame member
  unfold DummyWindow.update at member
  split at member
  · cases List.mem_singleton.mp member
    exact fun _ => rfl
  · cases member

private theorem prepared_sized (prepared : HeadersPrepared lowerBound stream encoder limit turn) :
    ∀ frame ∈ turn.out, frame.Sized := by
  cases prepared with
  | nothing => exact List.forall_mem_nil _
  | headers => exact List.forall_mem_singleton.mpr (sized_block _ _ rfl)
  | continuation => exact List.forall_mem_singleton.mpr (sized_block _ _ rfl)
  | closing =>
      exact List.forall_mem_cons.mpr ⟨sized_block _ _ rfl,
        List.forall_mem_singleton.mpr fun _ => rfl⟩

/-- The loop of `prepare_body` fills the payload. -/
theorem copyBody_length {slices : List Bytes} {offset size : Nat} {copied : Copied}
    (filled : copyBody slices offset size = .ok copied) : copied.payload.length = size := by
  induction slices generalizing offset size copied with
  | nil => cases filled
  | cons slice slices ih =>
      have taken : ((slice.drop offset).take (min size (slice.length - offset))).length =
          min size (slice.length - offset) := by
        rw [List.length_take, List.length_drop]
        omega
      unfold copyBody at filled
      simp only at filled
      split at filled
      · cases filled
        simp only [taken]
        omega
      · split at filled
        · cases filled
          simp only [taken]
          omega
        · obtain ⟨rest, later, same⟩ := Outcome.bind_eq_ok.mp filled
          cases same
          rw [List.length_append, ih later, taken]
          omega

private theorem prepareBody_sized {after : Stream} {frame : OutFrame} {used : Nat}
    (filled : stream.prepareBody limit = .ok (after, frame, used)) : frame.Sized := by
  obtain ⟨copied, taken, same⟩ := Outcome.bind_eq_ok.mp filled
  cases same
  have size := copyBody_length taken
  intro short
  simp only [dataFrame, bodySizes, FrameBuilder.data, OutFrame.header] at size short ⊢
  omega

/-- All frames of a stream have the length of their payload. -/
theorem getTxData_sized (sent : stream.getTxData lowerBound encoder limit = .ok turn) :
    ∀ frame ∈ turn.out, frame.Sized := by
  rcases getTxData_spec sent with
    ⟨_, rfl⟩ | ⟨_, _, rfl⟩ | ⟨_, _, headers, body, first, second, rfl⟩
  · exact List.forall_mem_singleton.mpr fun _ => rfl
  · exact List.forall_mem_nil _
  · have sized : ∀ frame ∈ headers.out, frame.Sized := by
      obtain ⟨prepared, cases, _, _, out⟩ := headerPhase_spec first
      rw [out]
      refine List.forall_mem_append.mpr ⟨update_sized _ _, ?_⟩
      rcases cases with ⟨_, prepared⟩ | ⟨_, rfl⟩
      · exact prepared_sized prepared
      · exact List.forall_mem_nil _
    unfold bodyPhase at second
    split at second
    · obtain ⟨⟨after, frame, used⟩, filled, same⟩ := Outcome.bind_eq_ok.mp second
      cases same
      exact List.forall_mem_append.mpr ⟨sized,
        List.forall_mem_singleton.mpr (prepareBody_sized filled)⟩
    · cases second
      exact sized

end Stream

/-- What was sent, as bytes. -/
def Tx.bytes : Tx → Bytes
  | .command bytes => bytes
  | .frame _ sent => sent.bytes

namespace Wire

/-- The frames of a stream of bytes, with payloads of any size that a header can give. -/
def peerFrames : Framing.Format (List Dispatched) UInt8 Dispatched := frames fun _ => 2 ^ 24 - 1

private theorem payloadLength_lt (bytes : Bytes) : payloadLength bytes < 2 ^ 24 := by
  have first := (bytes.getD 0 0).toNat_lt
  have second := (bytes.getD 1 0).toNat_lt
  have third := (bytes.getD 2 0).toNat_lt
  rw [payloadLength]
  omega

/-- A whole frame is cut off as one. -/
theorem classify_isFrame {bytes : Bytes} (frame : IsFrame bytes) :
    classify (2 ^ 24 - 1) bytes = .take (dispatch bytes) bytes.length := by
  have whole := frame.whole
  have small := payloadLength_lt bytes
  rw [classify, if_neg (by omega), if_neg, if_neg (by omega), ← whole, List.take_length]
  rintro (unknown | large)
  · exact frame.known unknown
  · omega

/-- Whole frames that are written one after another are cut off again. -/
theorem cut_frames {sent : List Tx} (frames : ∀ tx ∈ sent, IsFrame tx.bytes) :
    (peerFrames.cut [] (sent.flatMap Tx.bytes)).items = sent.map (fun tx => dispatch tx.bytes) ∧
      (peerFrames.cut [] (sent.flatMap Tx.bytes)).rest = [] := by
  have written : sent.flatMap Tx.bytes =
      (sent.map fun tx => dispatch tx.bytes).flatMap Dispatched.bytes := by
    rw [List.flatMap_map]
    simp only [bytes_dispatch]
  rw [written, Framing.Format.cut_flatMap]
  · exact ⟨rfl, rfl⟩
  · intro state item member
    obtain ⟨tx, sent, rfl⟩ := List.mem_map.mp member
    rw [bytes_dispatch]
    exact classify_isFrame (frames tx sent)

end Wire

namespace Client

variable {lowerBound : LowerBound} {client next : Client} {event : Event}

/-- The connection preface. -/
def preface : Bytes := ascii "PRI * HTTP/2.0\r\n\r\nSM\r\n\r\n"

/-- What holds of the output: the preface is the first command, all others are whole
frames, and nothing is sent before the preface. -/
structure Prefaced (history : Machine.History Client Tx) : Prop where
  issued : ∃ more, issued history = preface :: more ∧ ∀ command ∈ more, Wire.IsCommand command
  first : history.emitted = [] ∨ ∃ rest, history.emitted = .command preface :: rest

/-- Nothing of a stream is sent before the first command in the queue. -/
theorem getTxData_first {out : List Tx} {command : Bytes} {more : List Bytes}
    (queue : client.txCommandQueue = command :: more)
    (sent : client.getTxData lowerBound = .ok (next, out)) :
    out = [] ∨ ∃ rest, out = .command command :: rest := by
  obtain ⟨commands, left, window, taken, rest⟩ := getTxData_cases sent
  rw [queue, takeCommands] at taken
  by_cases large : command.length > client.serverWindowSize
  · rw [if_pos large] at taken
    cases taken
    rcases rest with ⟨_, _, rfl⟩ | ⟨serves, _⟩
    · exact .inl rfl
    · have all := serves.1
      rw [queue, takeCommands, if_pos large] at all
      cases all
  · rw [if_neg large] at taken
    cases taken
    rcases rest with ⟨_, _, rfl⟩ | ⟨_, _, _, _, rfl⟩
    · exact .inr ⟨_, rfl⟩
    · exact .inr ⟨_, rfl⟩

private theorem Prefaced.advance {history after : Machine.History Client Tx}
    (prefaced : Prefaced history)
    (whole : event.Whole) (taken : (machine lowerBound).advance history event = .ok after) :
    Prefaced after := by
  obtain ⟨more, issues, frames⟩ := prefaced.issued
  obtain ⟨later, grown, wholes, _⟩ := advance_issued whole taken
  refine ⟨⟨more ++ later, by rw [grown, issues, List.cons_append],
    List.forall_mem_append.mpr ⟨frames, wholes⟩⟩, ?_⟩
  obtain ⟨state, out, stepped, rfl⟩ := Machine.advance_eq_ok taken
  rcases prefaced.first with nothing | ⟨rest, started⟩
  · simp only [nothing, List.nil_append]
    rcases step_react stepped with ⟨rfl, sent⟩ | ⟨_, rfl, _⟩
    · rw [Client.issued, nothing] at issues
      exact getTxData_first issues sent
    · exact .inl rfl
  · exact .inr ⟨rest ++ out, by rw [started, List.cons_append]⟩

/-- Behind the preface everything is a whole frame, and the commands are frames of the
connection. -/
theorem output_framed {events : List Event} {last : Machine.History Client Tx}
    (whole : ∀ event ∈ events, event.Whole)
    (ran : (machine lowerBound).run opening events = .ok last)
    (short : ∀ frame ∈ streamFrames last.emitted, frame.payload.length < 2 ^ 24) :
    last.emitted = [] ∨ ∃ sent, last.emitted = .command preface :: sent ∧
      (∀ command, .command command ∈ sent → Wire.IsCommand command) ∧
      ∀ tx ∈ sent, Wire.IsFrame tx.bytes := by
  have prefaced := Machine.run_invariant
    (fun _ _ _ prefaced whole taken => Prefaced.advance prefaced whole taken)
    (⟨⟨[], rfl, List.forall_mem_nil _⟩, .inl rfl⟩ : Prefaced opening)
    (Machine.along_of_mem whole opening) ran
  rcases prefaced.first with nothing | ⟨sent, started⟩
  · exact .inl nothing
  · have control : ∀ command, .command command ∈ sent → Wire.IsCommand command := by
      intro command member
      obtain ⟨more, issues, frames⟩ := prefaced.issued
      rw [issued, started] at issues
      have others : commands sent ++ last.state.txCommandQueue = more :=
        (List.cons.inj issues).2
      apply frames
      rw [← others]
      exact List.mem_append_left _ (List.mem_filterMap.mpr ⟨_, member, rfl⟩)
    refine .inr ⟨sent, started, control, fun tx member => ?_⟩
    cases tx with
    | command bytes => exact (control bytes member).toIsFrame
    | frame ptr frame =>
        have emitted : .frame ptr frame ∈ last.emitted := started ▸ List.mem_cons_of_mem _ member
        have sized := frames_of_run (fun _ _ _ _ => Stream.getTxData_sized) rfl ran emitted
        have fits := short frame (List.mem_filterMap.mpr ⟨_, emitted, rfl⟩)
        exact Wire.isFrame_bytes (sized fits) (by rw [sized fits]; exact fits)

/-- **The output.** Whatever happens, what a client writes is the preface and then whole
frames: a peer that cuts the bytes behind the preface by the lengths in the headers gets
exactly the frames that were sent, in this order, and nothing is left over. -/
theorem output_cuts_back (lowerBound : LowerBound) (events : List Event)
    (last : Machine.History Client Tx) (whole : ∀ event ∈ events, event.Whole)
    (ran : (machine lowerBound).run opening events = .ok last)
    (short : ∀ frame ∈ streamFrames last.emitted, frame.payload.length < 2 ^ 24) :
    last.emitted = [] ∨ ∃ sent, last.emitted = .command preface :: sent ∧
      (Wire.peerFrames.cut [] (sent.flatMap Tx.bytes)).items =
        sent.map (fun tx => Wire.dispatch tx.bytes) ∧
      (Wire.peerFrames.cut [] (sent.flatMap Tx.bytes)).rest = [] := by
  rcases output_framed whole ran short with nothing | ⟨sent, started, _, frames⟩
  · exact .inl nothing
  · exact .inr ⟨sent, started, Wire.cut_frames frames⟩

/-- The settings, two requests with a body, and an answer to a PING frame in between. -/
def conversation : List Event :=
  [.syncSettings true, frameRead 4 0 0 [], frameRead 4 1 0 [], .connected,
    .send (sampleRequest .post [] [[1, 2, 3]]), .getTxData,
    frameRead 6 0 0 [1, 2, 3, 4, 5, 6, 7, 8], .send (sampleRequest .post [] [[4, 5]]), .getTxData]

/-- A peer gets back all frames of a conversation. -/
theorem output_cuts_back_conversation :
    ∃ last sent, (machine .linear).run opening conversation = .ok last ∧
      last.emitted = .command preface :: sent ∧
      (Wire.peerFrames.cut [] (sent.flatMap Tx.bytes)).items =
        sent.map (fun tx => Wire.dispatch tx.bytes) ∧
      (Wire.peerFrames.cut [] (sent.flatMap Tx.bytes)).rest = [] := by
  have passes : ((machine .linear).run opening conversation).toOption.any (fun last => decide (
      last.emitted ≠ [] ∧
      ∀ frame ∈ streamFrames last.emitted, frame.payload.length < 2 ^ 24)) = true := by
    decide +kernel
  obtain ⟨last, ran, checks⟩ := Outcome.exists_ok_of_any passes
  obtain ⟨some, short⟩ := of_decide_eq_true checks
  rcases output_cuts_back .linear conversation last (by decide +kernel) ran short with
    nothing | ⟨sent, cuts⟩
  · exact absurd nothing some
  · exact ⟨last, sent, ran, cuts⟩

end Client

end H2pp.Http2

import H2pp.Http2.ReceiveWindows

/-! # Commands

Frames of the connection are queued as commands. All code that reacts to the server or to
the user only ever appends to the queue, and `get_tx_data` only ever takes from its front,
so what was sent together with what is queued is all that was issued, in this order. Every
command is a whole frame, and the answers among them are those to the PING and SETTINGS
frames of the server, each once.
-/

namespace H2pp.Http2

open Utils Hpack

private theorem FrameType.value_injective {first second : FrameType}
    (same : first.value = second.value) :
    first = second := by
  have byte := ofByte_value first
  rw [same, ofByte_value] at byte
  exact (Option.some.inj byte).symm

/-- The types of the frames that carry requests. -/
def FrameType.carriesRequest : FrameType → Bool
  | .headers | .continuation | .data => true
  | _ => false

namespace Wire

/-- The flags in a frame header. -/
def flagsByte (stream : Bytes) : UInt8 := stream.getD 4 0

/-- The bytes are one whole frame of a known type. -/
structure IsFrame (bytes : Bytes) : Prop where
  whole : bytes.length = headerSize + payloadLength bytes
  known : FrameType.ofByte (typeByte bytes) ≠ none

instance (bytes : Bytes) : Decidable (IsFrame bytes) :=
  decidable_of_iff (bytes.length = headerSize + payloadLength bytes ∧
      FrameType.ofByte (typeByte bytes) ≠ none)
    ⟨fun both => ⟨both.1, both.2⟩, fun frame => ⟨frame.whole, frame.known⟩⟩

/-- The bytes are one whole frame of the connection, with no part of a request in it. -/
structure IsCommand (bytes : Bytes) : Prop extends IsFrame bytes where
  control : ∀ type ∈ FrameType.ofByte (typeByte bytes), type.carriesRequest = false

instance (bytes : Bytes) : Decidable (IsCommand bytes) :=
  decidable_of_iff (IsFrame bytes ∧
      ∀ type ∈ FrameType.ofByte (typeByte bytes), type.carriesRequest = false)
    ⟨fun both => ⟨both.1, both.2⟩, fun command => ⟨command.toIsFrame, command.control⟩⟩

/-- A PING or SETTINGS frame with the ACK flag. -/
def isAnswer (bytes : Bytes) : Bool :=
  (typeByte bytes = FrameType.ping.value || typeByte bytes = FrameType.settings.value) &&
    flagsByte bytes &&& Flags.ack ≠ 0

private theorem payloadLength_bytes {frame : OutFrame} (short : frame.length < 2 ^ 24) :
    payloadLength frame.bytes = frame.length := by
  have first : frame.bytes.getD 0 0 = UInt8.ofNat (frame.length / 2 ^ 16) := rfl
  have second : frame.bytes.getD 1 0 = UInt8.ofNat (frame.length / 2 ^ 8) := rfl
  have third : frame.bytes.getD 2 0 = UInt8.ofNat frame.length := rfl
  rw [payloadLength, first, second, third]
  simp only [UInt8.toNat_ofNat']
  omega

/-- A frame whose length is that of its payload. -/
theorem isFrame_bytes {frame : OutFrame} (sized : frame.length = frame.payload.length)
    (short : frame.length < 2 ^ 24) : IsFrame frame.bytes where
  whole := by rw [OutFrame.length_bytes, payloadLength_bytes short, OutFrame.size, sized]
  known := by
    have type : typeByte frame.bytes = frame.type.value := rfl
    rw [type, FrameType.ofByte_value]
    exact Option.some_ne_none _

private theorem isCommand_bytes {frame : OutFrame} (sized : frame.length = frame.payload.length)
    (short : frame.length < 2 ^ 24) (control : frame.type.carriesRequest = false) :
    IsCommand frame.bytes where
  toIsFrame := isFrame_bytes sized short
  control type known := by
    have same : typeByte frame.bytes = frame.type.value := rfl
    rw [same, FrameType.ofByte_value] at known
    cases known
    exact control

/-- A frame without the ACK flag, or of another type, is no answer. -/
theorem isAnswer_bytes {frame : OutFrame}
    (other : frame.type ≠ .ping ∧ frame.type ≠ .settings ∨ frame.flags &&& Flags.ack = 0) :
    isAnswer frame.bytes = false := by
  have type : typeByte frame.bytes = frame.type.value := rfl
  have flags : flagsByte frame.bytes = frame.flags := rfl
  rw [isAnswer, type, flags]
  rcases other with ⟨ping, settings⟩ | unset
  · have first : frame.type.value ≠ FrameType.ping.value := fun same =>
      ping (FrameType.value_injective same)
    have second : frame.type.value ≠ FrameType.settings.value := fun same =>
      settings (FrameType.value_injective same)
    simp only [first, second, decide_false, Bool.or_self, Bool.false_and]
  · simp only [unset, ne_eq, not_true_eq_false, decide_false, Bool.and_false]

/-- A frame that is sent back with the ACK flag. -/
theorem modify_flags {bytes : Bytes} (long : headerSize ≤ bytes.length) :
    payloadLength (bytes.modify 4 (· ||| Flags.ack)) = payloadLength bytes ∧
      typeByte (bytes.modify 4 (· ||| Flags.ack)) = typeByte bytes ∧
      flagsByte (bytes.modify 4 (· ||| Flags.ack)) = flagsByte bytes ||| Flags.ack := by
  have other (index : Nat) (differs : 4 ≠ index) :
      (bytes.modify 4 (· ||| Flags.ack)).getD index 0 = bytes.getD index 0 := by
    rw [List.getD_eq_getElem?_getD, List.getElem?_modify_ne _ _ differs, List.getD_eq_getElem?_getD]
  refine ⟨?_, other 3 (by decide), ?_⟩
  · rw [payloadLength, other 0 (by decide), other 1 (by decide), other 2 (by decide),
      payloadLength]
  · have inside : 4 < bytes.length := Nat.lt_of_lt_of_le (by decide) long
    rw [flagsByte, List.getD_eq_getElem?_getD, List.getElem?_modify_eq,
      List.getElem?_eq_getElem inside, flagsByte, List.getD_eq_getElem?_getD,
      List.getElem?_eq_getElem inside]
    rfl

end Wire

namespace Client

/-! ## What a reaction issues -/

/-- Commands are issued: they are appended to the queue, are whole frames, and contain
`answers`. -/
def Issues (first last : Outbox) (answers : List Bytes) : Prop :=
  ∃ issued, last.queue = first.queue ++ issued ∧
    (∀ command ∈ issued, Wire.IsCommand command) ∧ issued.filter Wire.isAnswer = answers

namespace Issues

variable {first outbox : Outbox} {answers : List Bytes}

private theorem refl (first : Outbox) : Issues first first [] :=
  ⟨[], (List.append_nil _).symm, List.forall_mem_nil _, rfl⟩

/-- A command that is a whole frame. -/
theorem send (before : Issues first outbox answers) {command : Bytes}
    (frame : Wire.IsCommand command) :
    Issues first (outbox.send command) (answers ++ [command].filter Wire.isAnswer) := by
  obtain ⟨issued, queue, frames, filtered⟩ := before
  refine ⟨issued ++ [command], ?_, ?_, ?_⟩
  · rw [Outbox.send, queue, List.append_assoc]
  · exact List.forall_mem_append.mpr ⟨frames, List.forall_mem_singleton.mpr frame⟩
  · rw [List.filter_append, filtered]

/-- A command that is no answer. -/
theorem sendOther (before : Issues first outbox answers) {command : Bytes}
    (frame : Wire.IsCommand command) (other : Wire.isAnswer command = false) :
    Issues first (outbox.send command) answers := by
  have sent := before.send frame
  rwa [List.filter_singleton, other, cond_false, List.append_nil] at sent

end Issues

/-- A WINDOW_UPDATE frame is a whole frame, and no answer. -/
theorem windowUpdate_spec (size : Nat) :
    Wire.IsCommand (FrameBuilder.updateWindow size 0).bytes ∧
      Wire.isAnswer (FrameBuilder.updateWindow size 0).bytes = false :=
  ⟨@Wire.isCommand_bytes (FrameBuilder.updateWindow size 0) rfl
    (show 4 % 2 ^ 24 < 2 ^ 24 by decide) rfl,
    Wire.isAnswer_bytes (.inr (show (0 : UInt8) &&& Flags.ack = 0 by decide))⟩

/-- So are the commands that the client queues on its own account. -/
theorem Own.spec {bytes : Bytes} (own : Own bytes) :
    Wire.IsCommand bytes ∧ Wire.isAnswer bytes = false := by
  cases own with
  | goaway err =>
      exact ⟨@Wire.isCommand_bytes (FrameBuilder.goaway err 1 []) rfl
        (show 8 % 2 ^ 24 < 2 ^ 24 by decide) rfl,
        Wire.isAnswer_bytes (.inr (show (0 : UInt8) &&& Flags.ack = 0 by decide))⟩
  | ping memory =>
      exact ⟨@Wire.isCommand_bytes (FrameBuilder.ping memory) (List.takeD_length 8 memory 0).symm
        (show 8 % 2 ^ 24 < 2 ^ 24 by decide) rfl,
        Wire.isAnswer_bytes (.inr (show (0 : UInt8) &&& Flags.ack = 0 by decide))⟩
  | settings started =>
      unfold SettingsManager.initiateSyncSettings at started
      split at started
      · cases started
      · cases started
        decide

/-- What fills the queue are whole frames, and the answers among them are those that are
due. -/
theorem Outbox.Filled.issues {settings : Settings} {first last : Outbox} {received : Nat}
    {due : List Bytes} (filled : Filled settings first received due last)
    (frames : ∀ command ∈ due, Wire.IsCommand command) :
    Issues first last (due.filter Wire.isAnswer) := by
  induction filled with
  | same => exact .refl first
  | @counted received due outbox size _ ih =>
      unfold Outbox.count
      rcases (outbox.window.dec size).update_cases 0 with ⟨_, same⟩ | taken
      · rw [same, Option.toList_none, List.map_nil, List.append_nil]
        exact ih frames
      · obtain ⟨frame, other⟩ := windowUpdate_spec (outbox.window.dec size).counted
        rw [taken]
        exact (ih frames).sendOther frame other
  | resized _ ih =>
      obtain ⟨frame, other⟩ := windowUpdate_spec _
      exact Issues.sendOther (ih frames) frame other
  | own own _ ih => exact (ih frames).sendOther own.spec.1 own.spec.2
  | due bytes _ ih =>
      obtain ⟨before, last⟩ := List.forall_mem_append.mp frames
      rw [List.filter_append]
      exact (ih before).send (last bytes List.mem_cons_self)

/-- The answers to what an event brings. -/
def answers : Event → List Bytes
  | .receiveFrame data =>
      match FrameType.ofByte (data.mem 3) with
      | some type => answerTo data type
      | none => []
  | _ => []

/-- A PING frame that is sent back is an answer. -/
theorem pingAnswer_spec {data : Span} (type : data.mem 3 = FrameType.ping.value)
    (whole : data.size = headerSize + readLength data) :
    Wire.IsCommand (data.bytes.modify 4 (· ||| Flags.ack)) ∧
      Wire.isAnswer (data.bytes.modify 4 (· ||| Flags.ack)) = true := by
  have long : headerSize ≤ data.bytes.length := by
    rw [Span.length_bytes, whole]
    exact Nat.le_add_right _ _
  have byte (index : Nat) (inside : index < headerSize) :
      data.bytes.getD index 0 = data.mem index := by
    rw [List.getD_eq_getElem?_getD, Span.bytes_getElem? data index
      (Nat.lt_of_lt_of_le inside (Span.length_bytes data ▸ long)), Option.getD_some]
  obtain ⟨length, same, flags⟩ := Wire.modify_flags long
  have typed : Wire.typeByte data.bytes = FrameType.ping.value :=
    (byte 3 (by decide)).trans type
  refine ⟨⟨⟨?_, ?_⟩, fun kind known => ?_⟩, ?_⟩
  · rw [List.length_modify, Span.length_bytes, length, whole, Wire.payloadLength,
      byte 0 (by decide), byte 1 (by decide), byte 2 (by decide)]
    rfl
  · rw [same, typed, FrameType.ofByte_value]
    exact Option.some_ne_none _
  · rw [same, typed, FrameType.ofByte_value] at known
    cases known
    rfl
  · have set : ∀ number < 2 ^ 8, (UInt8.ofNat number ||| Flags.ack) &&& Flags.ack ≠ 0 := by
      decide +kernel
    have acknowledged := set (Wire.flagsByte data.bytes).toNat (UInt8.toNat_lt _)
    rw [UInt8.ofNat_toNat] at acknowledged
    rw [Wire.isAnswer, same, typed, flags]
    exact decide_eq_true acknowledged

/-- The answer to a frame is an answer. -/
theorem answerTo_spec {data : Span} {type : FrameType} (typed : data.mem 3 = type.value)
    (whole : data.size = headerSize + readLength data) :
    ∀ command ∈ answerTo data type, Wire.IsCommand command ∧ Wire.isAnswer command = true := by
  cases type with
  | ping =>
      simp only [answerTo]
      split
      · exact List.forall_mem_singleton.mpr (pingAnswer_spec typed whole)
      · exact List.forall_mem_nil _
  | settings =>
      simp only [answerTo]
      split
      · exact List.forall_mem_singleton.mpr (by decide)
      · exact List.forall_mem_nil _
  | _ => exact List.forall_mem_nil _

/-- Frames come complete from the reader, and commands of others are whole frames that
answer nothing. -/
def Event.Whole : Event → Prop
  | .command bytes => Wire.IsCommand bytes ∧ Wire.isAnswer bytes = false
  | .receiveFrame data => data.size = headerSize + readLength data
  | _ => True

instance : ∀ event : Event, Decidable event.Whole
  | .command _ => inferInstanceAs (Decidable (_ ∧ _))
  | .receiveFrame _ => inferInstanceAs (Decidable (_ = _))
  | .connected | .syncSettings _ | .settingsTimeout | .ping _ | .send _ | .streamTimeout _
  | .receiveDataFrame _ | .getTxData | .disconnect _ | .cleanup _ => isTrue trivial

/-- What an event asks for are whole frames, and the answers to the frame received. -/
theorem due_spec {event : Event} (whole : event.Whole) :
    (∀ command ∈ due event, Wire.IsCommand command) ∧
      (due event).filter Wire.isAnswer = answers event := by
  cases event with
  | command bytes =>
      refine ⟨List.forall_mem_singleton.mpr whole.1, ?_⟩
      rw [due, List.filter_singleton, whole.2]
      rfl
  | receiveFrame data =>
      rcases FrameAnalyzer.fromBuffer_cases data with ⟨short, _⟩ | ⟨_, frame, analyzed, _⟩
      · rw [show data.size = headerSize + readLength data from whole] at short
        omega
      · have typeByte := FrameAnalyzer.typeByte_fromBuffer analyzed
        simp only [due, analyzed, answers, ← typeByte]
        cases known : FrameType.ofByte frame.typeByte with
        | none => exact ⟨List.forall_mem_nil _, rfl⟩
        | some type =>
            have typed : data.mem 3 = type.value := by
              rw [← typeByte, FrameType.value_of_ofByte known]
            have answered := answerTo_spec typed whole
            exact ⟨fun command member => (answered command member).1,
              List.filter_eq_self.mpr fun command member => (answered command member).2⟩
  | _ => exact ⟨List.forall_mem_nil _, rfl⟩

/-- **What a reaction issues.** It appends whole frames to the queue, and the answers
among them are those to the frame received. -/
theorem react_issues {client next : Client} {event : Event} (whole : event.Whole)
    (reacted : client.react event = .ok next) :
    Issues client.outbox next.outbox (answers event) := by
  obtain ⟨core, _, changes⟩ := react_changes reacted
  obtain ⟨frames, answered⟩ := due_spec whole
  rw [← answered]
  exact changes.outbox.issues frames

/-! ## Runs -/

/-- A client whose session is connecting: the preface is queued. -/
def opening : Machine.History Client Tx := ⟨create.writeInitialFrames, []⟩

/-- All commands so far: those that were sent and those in the queue. -/
def issued (history : Machine.History Client Tx) : List Bytes :=
  commands history.emitted ++ history.state.txCommandQueue

/-- A step issues whole frames, with the answers to what it brings, and takes nothing
back. -/
theorem advance_issued {lowerBound : LowerBound} {history next : Machine.History Client Tx}
    {event : Event} (whole : event.Whole)
    (taken : (machine lowerBound).advance history event = .ok next) :
    ∃ more, issued next = issued history ++ more ∧ (∀ command ∈ more, Wire.IsCommand command) ∧
      more.filter Wire.isAnswer = answers event := by
  obtain ⟨state, out, stepped, rfl⟩ := Machine.advance_eq_ok taken
  simp only [issued, commands_append]
  rcases step_react stepped with ⟨rfl, sent⟩ | ⟨_, rfl, reacted⟩
  · refine ⟨[], ?_, List.forall_mem_nil _, rfl⟩
    rw [List.append_assoc, (getTxData_commands sent).1, List.append_nil]
  · obtain ⟨more, queue, frames, answered⟩ := react_issues whole reacted
    change state.txCommandQueue = history.state.txCommandQueue ++ more at queue
    refine ⟨more, ?_, frames, answered⟩
    rw [queue, ← List.append_assoc]
    simp only [commands, List.filterMap_nil, List.append_nil]

/-- **Answers.** In every run the PING and SETTINGS frames with the ACK flag, those that
were sent and then those still queued, are the answers to the frames received: each frame
that asks for an answer has one, in the order in which they came, and nothing else has. -/
theorem answers_exact (lowerBound : LowerBound) (events : List Event)
    (last : Machine.History Client Tx) (whole : ∀ event ∈ events, event.Whole)
    (ran : (machine lowerBound).run opening events = .ok last) :
    (commands last.emitted).filter Wire.isAnswer ++
        last.state.txCommandQueue.filter Wire.isAnswer = events.flatMap answers := by
  -- the answers so far, and those to the events that are still to come
  have all := @Machine.run_remaining _ _ _ _ _ (fun _ event => event.Whole)
    (fun history remaining => (issued history).filter Wire.isAnswer ++
      remaining.flatMap answers = events.flatMap answers) ?_ _ _ _ ?_
    (Machine.along_of_mem whole opening) ran
  · rw [List.flatMap_nil, List.append_nil] at all
    rw [← all, issued, List.filter_append]
  · intro history event remaining next before whole taken
    obtain ⟨more, grown, _, answered⟩ := advance_issued whole taken
    rw [grown, List.filter_append, answered, List.append_assoc, ← List.flatMap_cons]
    exact before
  · rfl

/-- The settings of the server and a PING frame are answered with the first write. -/
def greeted : List Event :=
  [.syncSettings true, frameRead 4 0 0 [0, 4, 0, 0, 0, 60], frameRead 4 1 0 [],
    frameRead 6 0 0 [1, 2, 3, 4, 5, 6, 7, 8], .getTxData]

/-- The acknowledgement and the PING frame are sent back, in this order. -/
theorem answers_exact_greeted :
    ∃ last, (machine .linear).run opening greeted = .ok last ∧
      last.state.txCommandQueue = [] ∧
      (commands last.emitted).filter Wire.isAnswer ++
          last.state.txCommandQueue.filter Wire.isAnswer =
        [[0, 0, 0, 4, 1, 0, 0, 0, 0], [0, 0, 8, 6, 1, 0, 0, 0, 0, 1, 2, 3, 4, 5, 6, 7, 8]] := by
  have passes : ((machine .linear).run opening greeted).toOption.any
      (fun last => decide (last.state.txCommandQueue = [])) = true := by
    decide +kernel
  obtain ⟨last, ran, checks⟩ := Outcome.exists_ok_of_any passes
  exact ⟨last, ran, of_decide_eq_true checks,
    (answers_exact .linear greeted last (by decide +kernel) ran).trans (by decide +kernel)⟩

end Client

end H2pp.Http2

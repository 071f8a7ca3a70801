import H2pp.Http2.Reactions
import Mathlib.Algebra.Order.BigOperators.Group.List
import Mathlib.Algebra.Order.Group.Nat

/-! # The windows for received data

A window counts the bytes of received frames and credits them to the server with
WINDOW_UPDATE frames. The client counts whole frames, of the connection those of every
kind, while the server counts the payloads of DATA frames only. So the server is
credited, beyond what it has used, with every frame header and every other frame that
was counted before the last update.
-/

namespace H2pp.Http2

open Utils Hpack

/-- The increment of a WINDOW_UPDATE frame of a stream; no other frame has one. -/
def windowIncrement (streamId : Nat) (bytes : Bytes) : Nat :=
  let frame := Span.ofBytes (fun _ => 0) bytes
  if frame.mem 3 = FrameType.windowUpdate.value ∧ readNative32 frame 5 = streamId then
    readBig32 frame headerSize
  else 0

/-- The increments of some frames together. -/
def credited (streamId : Nat) (frames : List Bytes) : Nat :=
  (frames.map (windowIncrement streamId)).sum

/-- Credits add up. -/
@[simp] theorem credited_append (streamId : Nat) (first second : List Bytes) :
    credited streamId (first ++ second) = credited streamId first + credited streamId second := by
  rw [credited, List.map_append, List.sum_append, credited, credited]

/-- The credit of one frame. -/
@[simp] theorem credited_singleton (streamId : Nat) (bytes : Bytes) :
    credited streamId [bytes] = windowIncrement streamId bytes := by
  rw [credited, List.map_singleton, List.sum_singleton]

private theorem windowIncrement_updateWindow {size streamId : Nat} (small : size < 2 ^ 32)
    (identifies : streamId < 2 ^ 32) :
    windowIncrement streamId (FrameBuilder.updateWindow size streamId).bytes = size := by
  have held := Span.holds_ofBytes (fun _ => 0) (FrameBuilder.updateWindow size streamId).bytes
  have identifier := streamId_of_holds held identifies
  have increment := readBig32_of_holds (payload_of_holds held) small
  rw [windowIncrement, if_pos ⟨rfl, identifier⟩, increment]

private theorem windowIncrement_other {frame : OutFrame} (other : frame.type ≠ .windowUpdate)
    (streamId : Nat) : windowIncrement streamId frame.bytes = 0 := by
  refine if_neg fun both => other ?_
  have type : (Span.ofBytes (fun _ => 0) frame.bytes).mem 3 = frame.type.value := rfl
  have same := congrArg FrameType.ofByte (type.symm.trans both.1)
  rw [FrameType.ofByte_value, FrameType.ofByte_value] at same
  exact Option.some.inj same

/-- Frames of other types credit nothing. -/
theorem credited_other {frames : List OutFrame}
    (other : ∀ frame ∈ frames, frame.type ≠ .windowUpdate) (streamId : Nat) :
    credited streamId (frames.map OutFrame.bytes) = 0 := by
  rw [credited, List.map_map]
  refine List.sum_eq_zero fun increment member => ?_
  obtain ⟨frame, sent, rfl⟩ := List.mem_map.mp member
  exact windowIncrement_other (other frame sent) streamId

namespace DummyWindow

/-- An update takes all that has been counted, or it is not time for one. -/
theorem update_cases (window : DummyWindow) (httpId : Nat) :
    window.counted < window.triggerSize.toNat ∧ window.update httpId = (none, window) ∨
      window.update httpId =
        (some (FrameBuilder.updateWindow window.counted httpId),
          { window with size := window.maxSize }) := by
  unfold update
  rw [needUpdate_eq]
  split
  · have whole : window.size + (window.maxSize - window.size) = window.maxSize := by grind
    simp only [whole]
    exact .inr rfl
  · rename_i early
    rw [decide_eq_true_eq, Nat.not_le] at early
    exact .inl ⟨early, rfl⟩

/-- Nothing is counted after an update. -/
@[simp] theorem counted_full (window : DummyWindow) :
    DummyWindow.counted { window with size := window.maxSize } = 0 := by
  rw [counted, UInt32.sub_self]
  rfl

private theorem counted_lt (window : DummyWindow) : window.counted < 2 ^ 32 := UInt32.toNat_lt _

/-- What the server may have been told of a window: at first its `initial` size, then the
increments. All that was received is credited or still counted, but for what was lost
when the count wrapped around, `2 ^ 32` bytes each time. -/
structure Account (window : DummyWindow) (initial credits received lost : Nat) : Prop where
  balance : initial + credits + window.counted + lost = window.maxSize.toNat + received
  wraps : 2 ^ 32 ∣ lost

namespace Account

variable {window : DummyWindow} {initial credits received lost : Nat}

private theorem create (msize trigger : Nat) (small : msize < 2 ^ 32) :
    (DummyWindow.create msize trigger).Account msize 0 0 0 := by
  refine ⟨?_, Nat.dvd_zero _⟩
  rw [counted, DummyWindow.create, UInt32.sub_self, UInt32.toNat_ofNat', Nat.mod_eq_of_lt small]
  rfl

private theorem dec (account : window.Account initial credits received lost) (v : Nat) :
    ∃ more, (window.dec v).Account initial credits (received + v) (lost + more) ∧
      (window.counted + v < 2 ^ 32 → more = 0) := by
  refine ⟨window.counted + v - (window.dec v).counted, ⟨?_, ?_⟩, fun small => ?_⟩
  · have balance := account.balance
    have less := Nat.mod_le (window.counted + v) (2 ^ 32)
    rw [counted_dec]
    change _ = window.maxSize.toNat + _
    omega
  · rw [counted_dec]
    exact Nat.dvd_add account.wraps (Nat.dvd_sub_mod _)
  · rw [counted_dec, Nat.mod_eq_of_lt small, Nat.sub_self]

private theorem update (account : window.Account initial credits received lost) {httpId : Nat}
    (identifies : httpId < 2 ^ 32) :
    (window.update httpId).2.Account initial
      (credits + credited httpId ((window.update httpId).1.toList.map OutFrame.bytes))
      received lost := by
  rcases window.update_cases httpId with ⟨_, same⟩ | taken
  · rw [same]
    exact account
  · have balance := account.balance
    rw [taken, Option.toList_some, List.map_singleton, credited_singleton,
      windowIncrement_updateWindow window.counted_lt identifies]
    refine ⟨?_, account.wraps⟩
    rw [counted_full]
    change _ = window.maxSize.toNat + _
    omega

/-- The window as the server computes it, with `payload` of the received bytes in DATA
frames, exceeds the maximum size unless the other bytes are still counted or lost. -/
theorem window_le_iff (account : window.Account initial credits received lost) {payload : Nat}
    (part : payload ≤ received) :
    (initial + credits : Int) - payload ≤ window.maxSize.toNat ↔
      received - payload ≤ window.counted + lost := by
  have balance := account.balance
  omega

end Account

end DummyWindow

namespace Stream

/-- The bytes of a frame that the server counts: the payload of a DATA frame. -/
def Received.payload : Received → Nat
  | .data buff _ => buff.size - headerSize
  | _ => 0

/-- The bytes of an event that the window counts. -/
def Event.rawSize : Event → Nat
  | .send _ _ => 0
  | .receive received => received.rawSize

/-- The bytes of an event that the server counts. -/
def Event.payload : Event → Nat
  | .send _ _ => 0
  | .receive received => received.payload

private theorem Event.payload_le (event : Event) : event.payload ≤ event.rawSize := by
  cases event with
  | send encoder limit => exact Nat.le_refl _
  | receive received =>
      cases received with
      | data buff frame => exact Nat.sub_le _ _
      | _ => exact Nat.zero_le _

/-- The count of the window does not wrap around. -/
def NoWrap (history : Machine.History Stream OutFrame) (event : Event) : Prop :=
  history.state.localWindow.counted + event.rawSize < 2 ^ 32

variable {lowerBound : LowerBound} {stream : Stream} {encoder : Encoder} {limit : Nat} {turn : Turn}

/-- The headers credit nothing, and leave the window alone. -/
theorem HeadersPrepared.window (prepared : HeadersPrepared lowerBound stream encoder limit turn) :
    turn.stream.localWindow = stream.localWindow ∧
      ∀ frame ∈ turn.out, frame.type ≠ .windowUpdate := by
  cases prepared with
  | nothing encoded => exact ⟨rfl, fun _ none_sent => nomatch none_sent⟩
  | headers encoded some first => exact ⟨rfl, List.forall_mem_singleton.mpr nofun⟩
  | continuation encoded some later more => exact ⟨rfl, List.forall_mem_singleton.mpr nofun⟩
  | closing encoded some later all bodyless =>
      exact ⟨rfl, List.forall_mem_cons.mpr ⟨nofun, List.forall_mem_singleton.mpr nofun⟩⟩

private theorem headerPhase_window (sent : stream.headerPhase lowerBound encoder limit = .ok turn) :
    turn.stream.localWindow = (stream.localWindow.update stream.httpId).2 ∧
      ∃ headers : List OutFrame, (∀ frame ∈ headers, frame.type ≠ .windowUpdate) ∧
        turn.out = (stream.localWindow.update stream.httpId).1.toList ++ headers := by
  obtain ⟨headers, prepared, same, _, out⟩ := headerPhase_spec sent
  rw [same, out]
  rcases prepared with ⟨_, prepared⟩ | ⟨_, rfl⟩
  · exact ⟨prepared.window.1, _, prepared.window.2, rfl⟩
  · exact ⟨rfl, [], List.forall_mem_nil _, rfl⟩

/-- Sending credits what the window has counted, or nothing. -/
theorem getTxData_window (sent : stream.getTxData lowerBound encoder limit = .ok turn) :
    turn.stream.localWindow = stream.localWindow ∧
        (∀ frame ∈ turn.out, frame.type ≠ .windowUpdate) ∨
      turn.stream.localWindow = (stream.localWindow.update stream.httpId).2 ∧
        ∃ others : List OutFrame, (∀ frame ∈ others, frame.type ≠ .windowUpdate) ∧
          turn.out = (stream.localWindow.update stream.httpId).1.toList ++ others := by
  rcases getTxData_spec sent with
    ⟨_, rfl⟩ | ⟨_, _, rfl⟩ | ⟨_, _, headers, body, first, second, rfl⟩
  · exact .inl ⟨rfl, List.forall_mem_singleton.mpr nofun⟩
  · exact .inl ⟨rfl, fun _ none_sent => nomatch none_sent⟩
  · obtain ⟨window, others, types, out⟩ := headerPhase_window first
    have kept : body.stream.localWindow = headers.stream.localWindow := by
      rcases bodyPhase_stream second with same | ⟨copied, same⟩
      · rw [same]
      · rw [same]
        rfl
    refine .inr ⟨kept.trans window, ?_⟩
    unfold bodyPhase at second
    split at second
    · obtain ⟨⟨after, frame, used⟩, prepared, same⟩ := Outcome.bind_eq_ok.mp second
      cases same
      have data := (prepareBody_frame prepared).1
      refine ⟨others ++ [frame], List.forall_mem_append.mpr ⟨types, ?_⟩, ?_⟩
      · rw [List.forall_mem_singleton, data]
        nofun
      · simp only [out, List.append_assoc]
    · cases second
      exact ⟨others, types, out⟩

variable {initial httpId received lost : Nat}

/-- The account of the window of a stream. -/
def WindowAccount (initial httpId received lost : Nat) (history : Machine.History Stream OutFrame) :
    Prop :=
  history.state.httpId = httpId ∧ history.state.localWindow.Account initial
    (credited httpId (history.emitted.map OutFrame.bytes)) received lost

private theorem advance_account {history next : Machine.History Stream OutFrame} {event : Event}
    (identifies : httpId < 2 ^ 32) (account : WindowAccount initial httpId received lost history)
    (taken : (machine lowerBound).advance history event = .ok next) :
    ∃ more, WindowAccount initial httpId (received + event.rawSize) (lost + more) next ∧
      (NoWrap history event → more = 0) := by
  obtain ⟨same, account⟩ := account
  obtain ⟨state, out, stepped, rfl⟩ := Machine.advance_eq_ok taken
  cases event with
  | receive received =>
      cases stepped
      obtain ⟨more, counted, exactly⟩ := account.dec received.rawSize
      refine ⟨more, ⟨(receive_httpId _ _).trans same, ?_⟩, exactly⟩
      rw [receive_localWindow, List.append_nil]
      exact counted
  | send encoder limit =>
      obtain ⟨turn, sent, same_out⟩ := Outcome.bind_eq_ok.mp stepped
      cases same_out
      refine ⟨0, ⟨(getTxData_httpId sent).trans same, ?_⟩, fun _ => rfl⟩
      simp only [List.map_append, credited_append]
      rcases getTxData_window sent with ⟨window, others⟩ | ⟨window, others, types, out⟩
      · rw [window, credited_other others]
        exact account
      · rw [window, out, List.map_append, credited_append, credited_other types, Nat.add_zero, same]
        exact account.update identifies

/-- The account over a run. Nothing is lost if the count never wraps around. -/
theorem run_account {events : List Event} {history last : Machine.History Stream OutFrame}
    (identifies : httpId < 2 ^ 32) (account : WindowAccount initial httpId 0 0 history)
    (ran : (machine lowerBound).run history events = .ok last) :
    ∃ lost, WindowAccount initial httpId (events.map Event.rawSize).sum lost last ∧
      ((machine lowerBound).Along NoWrap history events → lost = 0) := by
  have along := Machine.along_of_imp (id : (machine lowerBound).Along NoWrap history events → _)
  have measured := @Machine.run_measured _ _ _ _ _ _ Event.rawSize
    (fun received next => ∃ lost, WindowAccount initial httpId received lost next ∧
      ((machine lowerBound).Along NoWrap history events → lost = 0)) ?_ _ _ _ 0
    ⟨0, account, fun _ => rfl⟩ along ran
  · rw [Nat.zero_add] at measured
    exact measured
  · rintro received before event next ⟨lost, account, exactly⟩ small taken
    obtain ⟨more, after, none_more⟩ := advance_account identifies account taken
    refine ⟨lost + more, after, fun premise => ?_⟩
    rw [exactly premise, none_more (small premise)]

/-- The window of a stream as the server computes it. -/
def serverWindow (localSize httpId : Nat) (events : List Event)
    (history : Machine.History Stream OutFrame) : Int :=
  (localSize + credited httpId (history.emitted.map OutFrame.bytes) : Int) -
    (events.map Event.payload).sum

/-- The received bytes that the server does not count: headers of DATA frames, and other
frames. -/
def overhead (events : List Event) : Nat :=
  (events.map Event.rawSize).sum - (events.map Event.payload).sum

private theorem payload_le_rawSize (events : List Event) :
    (events.map Event.payload).sum ≤ (events.map Event.rawSize).sum :=
  List.sum_le_sum fun event _ => event.payload_le

private theorem serverWindow_le_iff {httpId remoteSize localSize : Nat} {request : Request}
    {events : List Event} {last : Machine.History Stream OutFrame} (identifies : httpId < 2 ^ 32)
    (small : localSize < 2 ^ 32)
    (ran : (machine lowerBound).run ⟨.create httpId remoteSize localSize request, []⟩ events =
      .ok last) :
    ∃ lost, 2 ^ 32 ∣ lost ∧
      localSize + credited httpId (last.emitted.map OutFrame.bytes) +
          last.state.localWindow.counted + lost =
        last.state.localWindow.maxSize.toNat + (events.map Event.rawSize).sum ∧
      ((machine lowerBound).Along NoWrap
        ⟨.create httpId remoteSize localSize request, []⟩ events → lost = 0) ∧
      (serverWindow localSize httpId events last ≤ last.state.localWindow.maxSize.toNat ↔
        overhead events ≤ last.state.localWindow.counted + lost) := by
  have start :
      WindowAccount localSize httpId 0 0 ⟨.create httpId remoteSize localSize request, []⟩ :=
    ⟨rfl, .create localSize _ small⟩
  obtain ⟨lost, ⟨_, account⟩, exactly⟩ := run_account identifies start ran
  exact ⟨lost, account.wraps, account.balance, exactly,
    account.window_le_iff (payload_le_rawSize events)⟩

end Stream

namespace Client

/-! ## The window of the connection -/

/-- The commands among what was sent. -/
def commands (sent : List Tx) : List Bytes :=
  sent.filterMap fun
    | .command bytes => some bytes
    | .frame _ _ => none

/-- The bytes of a frame that the server counts: the payload of a DATA frame. -/
def flowControlled (frame : Span) : Nat :=
  if frame.mem 3 = FrameType.data.value then frame.size - headerSize else 0

/-- The bytes of an event that the server counts. -/
def Event.payload (event : Event) : Nat := (event.span.map flowControlled).getD 0

/-- Frames come complete from the reader, and nobody but the client itself queues
WINDOW_UPDATE frames of the connection. -/
def Event.Admissible : Event → Prop
  | .command bytes => windowIncrement 0 bytes = 0
  | .receiveFrame data => data.size = headerSize + readLength data
  | .receiveDataFrame buff => buff.size = headerSize + readLength buff
  | _ => True

/-- A PING frame that is sent back is still one. -/
theorem windowIncrement_ping {data : Span} (long : headerSize ≤ data.size)
    (type : data.mem 3 = FrameType.ping.value) :
    windowIncrement 0 (data.bytes.modify 4 (· ||| Flags.ack)) = 0 := by
  have third : (Span.ofBytes (fun _ => 0) (data.bytes.modify 4 (· ||| Flags.ack))).mem 3 =
      data.mem 3 := by
    change (data.bytes.modify 4 (· ||| Flags.ack)).getD 3 0 = data.mem 3
    rw [List.getD_eq_getElem?_getD, List.getElem?_modify,
      Span.bytes_getElem? data 3 (Nat.lt_of_lt_of_le (by decide) long)]
    rfl
  refine if_neg fun both => ?_
  rw [third, type] at both
  exact absurd both.1 (by decide)

/-- The commands that the client queues on its own account credit nothing. -/
theorem Own.windowIncrement {bytes : Bytes} (own : Own bytes) : windowIncrement 0 bytes = 0 := by
  cases own with
  | goaway err => exact windowIncrement_other (show FrameType.goaway ≠ _ by decide) 0
  | ping memory => exact windowIncrement_other (show FrameType.ping ≠ _ by decide) 0
  | settings started =>
      refine windowIncrement_other ?_ 0
      unfold SettingsManager.initiateSyncSettings at started
      split at started
      · cases started
      · cases started
        exact (show FrameType.settings ≠ .windowUpdate by decide)

/-- Nor do those that an event asks for. -/
theorem due_windowIncrement {event : Event} (admissible : event.Admissible) :
    ∀ bytes ∈ due event, windowIncrement 0 bytes = 0 := by
  cases event with
  | command bytes => exact List.forall_mem_singleton.mpr admissible
  | receiveFrame data =>
      have long : headerSize ≤ data.size := by
        rw [show data.size = headerSize + readLength data from admissible]
        exact Nat.le_add_right _ _
      simp only [due]
      split
      · exact List.forall_mem_nil _
      · rename_i frame read
        split
        · exact List.forall_mem_nil _
        · rename_i type known
          have byte := FrameType.value_of_ofByte known
          rw [FrameAnalyzer.typeByte_fromBuffer read] at byte
          cases type with
          | ping =>
              simp only [answerTo]
              split
              · exact List.forall_mem_singleton.mpr (windowIncrement_ping long byte)
              · exact List.forall_mem_nil _
          | settings =>
              simp only [answerTo]
              split
              · exact List.forall_mem_singleton.mpr
                  (windowIncrement_other (show FrameType.settings ≠ _ by decide) 0)
              · exact List.forall_mem_nil _
          | _ => exact List.forall_mem_nil _
  | _ => exact List.forall_mem_nil _

namespace Outbox

/-- The account of the connection: what was sent and what is queued credits the server.
The window is one of the two sizes it ever has, and is updated in time. -/
structure Ledger (outbox : Outbox) (sent : List Bytes) (received : Nat) : Prop where
  account : outbox.window.Account initialWindowSize (credited 0 (sent ++ outbox.queue)) received 0
  timely : outbox.window.counted ≤ outbox.window.triggerSize.toNat
  trigger : outbox.window.triggerSize.toNat ≤ 3276750
  capacity : outbox.window.maxSize.toNat ≤ 6553500

namespace Ledger

variable {outbox : Outbox} {sent : List Bytes} {received : Nat}

private theorem create : (Client.outbox .create).Ledger [] 0 :=
  ⟨.create initialWindowSize _ (by decide), by decide, by decide, by decide⟩

/-- A command that credits nothing. -/
theorem send (ledger : outbox.Ledger sent received) {bytes : Bytes}
    (neutral : windowIncrement 0 bytes = 0) : (outbox.send bytes).Ledger sent received := by
  refine ⟨?_, ledger.timely, ledger.trigger, ledger.capacity⟩
  have same : credited 0 (sent ++ (outbox.queue ++ [bytes])) =
      credited 0 (sent ++ outbox.queue) := by
    simp only [credited_append, credited_singleton, neutral, Nat.add_zero]
  rw [Outbox.send, same]
  exact ledger.account

/-- A received frame is counted, and credited with all others when it is time. -/
theorem count (ledger : outbox.Ledger sent received) (size : Nat) (small : size < 2 ^ 25) :
    (outbox.count size).Ledger sent (received + size) := by
  have bound : outbox.window.counted + size < 2 ^ 32 := by
    have timely := ledger.timely
    have trigger := ledger.trigger
    omega
  obtain ⟨more, counted, exactly⟩ := ledger.account.dec size
  rw [exactly bound, Nat.add_zero] at counted
  have updated := counted.update (Nat.two_pow_pos 32)
  unfold Outbox.count
  rcases (outbox.window.dec size).update_cases 0 with ⟨early, same⟩ | taken
  · rw [same] at updated ⊢
    rw [Option.toList_none, List.map_nil, List.append_nil]
    exact ⟨updated, Nat.le_of_lt early, ledger.trigger, ledger.capacity⟩
  · rw [taken] at updated ⊢
    refine ⟨?_, ?_, ledger.trigger, ledger.capacity⟩
    · rw [Option.toList_some, List.map_singleton, ← credited_append, List.append_assoc] at updated
      exact updated
    · refine Nat.le_trans (Nat.le_of_eq ?_) (Nat.zero_le _)
      exact (outbox.window.dec size).counted_full

/-- The handler of the settings replaces the window and credits the difference. -/
theorem resize (ledger : outbox.Ledger sent received) :
    (outbox.resize {}).Ledger sent received := by
  have size : ({} : Settings).initialWindowSize * ({} : Settings).maxConcurrentStreams % 2 ^ 32 =
      6553500 := rfl
  simp only [Outbox.resize, size]
  have increment : (UInt32.ofNat 6553500 - outbox.window.size).toNat +
      outbox.window.maxSize.toNat = 6553500 + outbox.window.counted := by
    have timely := ledger.timely
    have trigger := ledger.trigger
    have capacity := ledger.capacity
    have bound := outbox.window.size.toNat_lt
    rw [DummyWindow.counted, UInt32.toNat_sub] at timely ⊢
    rw [UInt32.toNat_sub, UInt32.toNat_ofNat']
    omega
  obtain ⟨fresh, trigger, maximum⟩ :
      DummyWindow.counted (.create 6553500 (6553500 / 2)) = 0 ∧
        (DummyWindow.create 6553500 (6553500 / 2)).triggerSize.toNat ≤ 3276750 ∧
        (DummyWindow.create 6553500 (6553500 / 2)).maxSize.toNat = 6553500 := by decide
  refine ⟨⟨?_, Nat.dvd_zero _⟩, Nat.le_trans (Nat.le_of_eq fresh) (Nat.zero_le _), trigger,
    Nat.le_of_eq maximum⟩
  have balance := ledger.account.balance
  have credits := windowIncrement_updateWindow
    (UInt32.toNat_lt (UInt32.ofNat 6553500 - outbox.window.size)) (Nat.two_pow_pos 32)
  simp only [credited_append, Outbox.send, credited_singleton, credits] at balance ⊢
  rw [fresh, maximum]
  omega

/-- A reaction keeps the account. -/
theorem filled {last : Outbox} {more : Nat} {due : List Bytes}
    (ledger : outbox.Ledger sent received) (filled : Filled {} outbox more due last)
    (small : more < 2 ^ 25) (neutral : ∀ bytes ∈ due, windowIncrement 0 bytes = 0) :
    last.Ledger sent (received + more) := by
  induction filled with
  | same => exact ledger
  | counted size _ ih =>
      rw [← Nat.add_assoc]
      exact (ih (by omega) neutral).count size (by omega)
  | resized _ ih => exact (ih small neutral).resize
  | own own _ ih => exact (ih small neutral).send own.windowIncrement
  | due bytes _ ih =>
      obtain ⟨before, last⟩ := List.forall_mem_append.mp neutral
      exact (ih small before).send (last bytes List.mem_cons_self)

end Ledger

end Outbox

/-- The bytes of an event that brings a whole frame. -/
theorem Event.rawSize_lt {event : Event} (admissible : event.Admissible) :
    event.rawSize < 2 ^ 25 := by
  have whole {frame : Span} (same : frame.size = headerSize + readLength frame) :
      frame.size < 2 ^ 25 := by
    have small := readLength_lt frame
    rw [same, headerSize]
    omega
  cases event with
  | receiveFrame data => exact whole admissible
  | receiveDataFrame buff => exact whole admissible
  | _ => exact Nat.two_pow_pos 25

/-- The account of the connection of a client, whose settings are the defaults. -/
structure Ledger (client : Client) (sent : List Bytes) (received : Nat) : Prop where
  outbox : client.outbox.Ledger sent received
  settings : client.settings.localSettings = {}

/-- What is received or called keeps the account. -/
theorem Ledger.react {client next : Client} {sent : List Bytes} {received : Nat} {event : Event}
    (ledger : client.Ledger sent received) (admissible : event.Admissible)
    (reacted : client.react event = .ok next) : next.Ledger sent (received + event.rawSize) := by
  obtain ⟨core, _, changes⟩ := react_changes reacted
  have filled := changes.outbox
  rw [ledger.settings] at filled
  refine ⟨ledger.outbox.filled filled (Event.rawSize_lt admissible)
    (due_windowIncrement admissible), ?_⟩
  rcases react_localSettings reacted with same | fresh
  · exact same.trans ledger.settings
  · exact fresh

/-- What is taken and what is left make up the queue. -/
theorem takeCommands_append (queue : List Bytes) (window : Nat) :
    (takeCommands queue window).1 ++ (takeCommands queue window).2.1 = queue := by
  induction queue generalizing window with
  | nil => rfl
  | cons command queue ih =>
      rw [takeCommands]
      split
      · rfl
      · exact congrArg (List.cons command) (ih _)

/-- The commands are picked part by part. -/
@[simp] theorem commands_append (first second : List Tx) :
    commands (first ++ second) = commands first ++ commands second := List.filterMap_append

private theorem commands_map (queue : List Bytes) : commands (queue.map Tx.command) = queue := by
  induction queue with
  | nil => rfl
  | cons command queue ih => exact congrArg (List.cons command) ih

private theorem commands_frames (frames : List (Nat × OutFrame)) :
    commands (frames.map fun entry => Tx.frame entry.1 entry.2) = [] := by
  induction frames with
  | nil => rfl
  | cons entry frames ih => exact ih

/-- Sending moves commands out of the queue. -/
theorem getTxData_commands {lowerBound : LowerBound} {client next : Client} {out : List Tx}
    (sent : client.getTxData lowerBound = .ok (next, out)) :
    commands out ++ next.txCommandQueue = client.txCommandQueue ∧
      next.localWindow = client.localWindow ∧ next.settings = client.settings := by
  have whole := takeCommands_append client.txCommandQueue client.serverWindowSize
  obtain ⟨first, left, window, taken, rest⟩ := getTxData_cases sent
  rw [taken] at whole
  rcases rest with ⟨_, rfl, rfl⟩ | ⟨_, final, _, rfl, rfl⟩
  · exact ⟨by rw [commands_map]; exact whole, rfl, rfl⟩
  · refine ⟨?_, rfl, rfl⟩
    rw [commands_append, commands_map, streamTx, commands_frames, List.append_nil]
    exact whole

private theorem advance_ledger {lowerBound : LowerBound} {history next : Machine.History Client Tx}
    {event : Event} {received : Nat}
    (ledger : history.state.Ledger (commands history.emitted) received)
    (admissible : event.Admissible)
    (taken : (machine lowerBound).advance history event = .ok next) :
    next.state.Ledger (commands next.emitted) (received + event.rawSize) := by
  obtain ⟨state, out, stepped, rfl⟩ := Machine.advance_eq_ok taken
  rcases step_react stepped with ⟨rfl, sent⟩ | ⟨_, rfl, reacted⟩
  · obtain ⟨queue, window, settings⟩ := getTxData_commands sent
    obtain ⟨⟨account, timely, trigger, capacity⟩, fresh⟩ := ledger
    refine ⟨?_, (congrArg (·.localSettings) settings).trans fresh⟩
    simp only [outbox, window, commands_append]
    refine ⟨?_, timely, trigger, capacity⟩
    rw [List.append_assoc, queue]
    exact account
  · rw [List.append_nil]
    exact ledger.react admissible reacted

/-- The window of the connection as the server computes it. -/
def serverWindow (events : List Event) (history : Machine.History Client Tx) : Int :=
  (initialWindowSize +
      credited 0 (commands history.emitted ++ history.state.txCommandQueue) : Int) -
    (events.map Event.payload).sum

/-- The received bytes that the server does not count: headers of DATA frames, and other
frames. -/
def overhead (events : List Event) : Nat :=
  (events.map Event.rawSize).sum - (events.map Event.payload).sum

private theorem payload_le_rawSize (events : List Event) :
    (events.map Event.payload).sum ≤ (events.map Event.rawSize).sum := by
  refine List.sum_le_sum fun event _ => ?_
  cases found : event.span with
  | none => rw [Event.payload, Event.rawSize, found]; exact Nat.le_refl _
  | some frame =>
      rw [Event.payload, Event.rawSize, found, Option.map_some, Option.map_some, Option.getD_some,
        Option.getD_some, flowControlled]
      split
      · exact Nat.sub_le _ _
      · exact Nat.zero_le _

private theorem serverWindow_le_iff {lowerBound : LowerBound} {events : List Event}
    {last : Machine.History Client Tx} (admissible : ∀ event ∈ events, event.Admissible)
    (ran : (machine lowerBound).run ⟨.create, []⟩ events = .ok last) :
    serverWindow events last ≤ last.state.localWindow.maxSize.toNat ↔
      overhead events ≤ last.state.localWindow.counted := by
  have ledger := @Machine.run_measured _ _ _ _ _ (fun _ event => event.Admissible) Event.rawSize
    (fun received history => history.state.Ledger (commands history.emitted) received)
    (fun received history event next ledger admissible taken =>
      advance_ledger ledger admissible taken) _ _ _ 0 ⟨.create, rfl⟩
    (Machine.along_of_mem admissible _) ran
  rw [Nat.zero_add] at ledger
  exact ledger.outbox.account.window_le_iff (payload_le_rawSize events)

end Client

/-- **The windows for received data.** In every state of a run, the window of the
connection as the server computes it is at most the client's maximum exactly if all
received bytes other than DATA payloads have been counted since the last update. So is
the window of a stream, except for the bytes that are lost when its count wraps around: the
received bytes that are neither credited nor still counted, a multiple of `2 ^ 32`. -/
theorem receive_windows_iff (lowerBound : LowerBound) :
    (∀ (events : List Client.Event) (last : Machine.History Client Tx),
      (∀ event ∈ events, event.Admissible) →
      (Client.machine lowerBound).run ⟨.create, []⟩ events = .ok last →
      (Client.serverWindow events last ≤ last.state.localWindow.maxSize.toNat ↔
        Client.overhead events ≤ last.state.localWindow.counted)) ∧
    ∀ (httpId remoteSize localSize : Nat) (request : Request) (events : List Stream.Event)
      (last : Machine.History Stream OutFrame), httpId < 2 ^ 32 → localSize < 2 ^ 32 →
      (Stream.machine lowerBound).run ⟨.create httpId remoteSize localSize request, []⟩ events =
        .ok last →
      ∃ lost, 2 ^ 32 ∣ lost ∧
        localSize + credited httpId (last.emitted.map OutFrame.bytes) +
            last.state.localWindow.counted + lost =
          last.state.localWindow.maxSize.toNat + (events.map Stream.Event.rawSize).sum ∧
        ((Stream.machine lowerBound).Along Stream.NoWrap
          ⟨.create httpId remoteSize localSize request, []⟩ events → lost = 0) ∧
        (Stream.serverWindow localSize httpId events last ≤ last.state.localWindow.maxSize.toNat ↔
          Stream.overhead events ≤ last.state.localWindow.counted + lost) :=
  ⟨fun _ _ admissible ran => Client.serverWindow_le_iff admissible ran,
    fun _ _ _ _ _ _ identifies small ran => Stream.serverWindow_le_iff identifies small ran⟩

/-- The settings of the server and their acknowledgement of the client's. -/
def synchronisation : List Client.Event :=
  [.connected, .syncSettings true, Client.frameRead 4 0 0 [], Client.frameRead 4 1 0 []]

/-- A HEADERS frame without fields and a DATA frame with ten bytes of payload. -/
def smallResponse : List Stream.Event :=
  [.receive (.headers [] 0 9),
    .receive (.data (Span.ofBytes (fun _ => 0) ([0, 0, 10, 0, 0, 0, 0, 0, 1] ++ List.replicate 10 0))
      ⟨Span.ofBytes (fun _ => 0) ([0, 0, 10, 0, 0, 0, 0, 0, 1] ++ List.replicate 10 0), by decide,
        by decide⟩)]

/-- A stream with a window of 64 bytes. -/
def smallStream : Machine.History Stream OutFrame := ⟨.create 1 100 64 ⟨[], [], 0⟩, []⟩

/-- The connection and a PING frame. -/
def pinged : List Client.Event :=
  [.connected, Client.frameRead 6 0 0 (List.replicate 8 0)]

/-- Before the first update no window is larger than it should be. -/
theorem receive_windows_before_update :
    (∃ last, (Client.machine .linear).run ⟨.create, []⟩ pinged = .ok last ∧
      Client.serverWindow pinged last ≤ last.state.localWindow.maxSize.toNat) ∧
    ∃ last, (Stream.machine .linear).run smallStream smallResponse = .ok last ∧
      Stream.serverWindow 64 1 smallResponse last ≤ last.state.localWindow.maxSize.toNat := by
  have connection : ((Client.machine .linear).run ⟨.create, []⟩ pinged).toOption.any
      (fun last => decide (Client.overhead pinged ≤ last.state.localWindow.counted)) = true := by
    decide +kernel
  have stream : ((Stream.machine .linear).run smallStream smallResponse).toOption.any
      (fun last => decide (Stream.overhead smallResponse ≤ last.state.localWindow.counted)) =
        true := by
    decide +kernel
  have admissible : ∀ event ∈ pinged, event.Admissible :=
    List.forall_mem_cons.mpr ⟨trivial, List.forall_mem_singleton.mpr rfl⟩
  obtain ⟨client, ran, counted⟩ := Outcome.exists_ok_of_any connection
  obtain ⟨last, received, still⟩ := Outcome.exists_ok_of_any stream
  obtain ⟨windows, streams⟩ := receive_windows_iff .linear
  obtain ⟨lost, _, _, _, window⟩ := streams 1 100 64 ⟨[], [], 0⟩ smallResponse last (by decide)
    (by decide) received
  exact ⟨⟨client, ran, (windows pinged client admissible ran).mpr (of_decide_eq_true counted)⟩,
    last, received,
    window.mpr (Nat.le_trans (of_decide_eq_true still) (Nat.le_add_right _ _))⟩

/-- Right after the synchronisation the server computes more than the maximum of the
connection, and after its first update more than the maximum of the stream. -/
theorem receive_windows_exceeded :
    (∃ last, (Client.machine .linear).run ⟨.create, []⟩ synchronisation = .ok last ∧
      last.state.localWindow.maxSize.toNat < Client.serverWindow synchronisation last) ∧
    ∃ last, (Stream.machine .linear).run smallStream (smallResponse ++ [.send .create 100]) =
        .ok last ∧
      last.state.localWindow.maxSize.toNat <
        Stream.serverWindow 64 1 (smallResponse ++ [.send .create 100]) last := by
  have connection : ((Client.machine .linear).run ⟨.create, []⟩ synchronisation).toOption.any
      (fun last => decide (last.state.localWindow.maxSize.toNat <
        Client.serverWindow synchronisation last)) = true := by decide +kernel
  have stream : ((Stream.machine .linear).run smallStream
      (smallResponse ++ [.send .create 100])).toOption.any
      (fun last => decide (last.state.localWindow.maxSize.toNat <
        Stream.serverWindow 64 1 (smallResponse ++ [.send .create 100]) last)) = true := by
    decide +kernel
  obtain ⟨client, ran, exceeded⟩ := Outcome.exists_ok_of_any connection
  obtain ⟨last, sent, more⟩ := Outcome.exists_ok_of_any stream
  exact ⟨⟨client, ran, of_decide_eq_true exceeded⟩, last, sent, of_decide_eq_true more⟩

end H2pp.Http2

import H2pp.Http2.Accounting

/-! # The budget of a round

`base_client::get_tx_data` gives the streams a limit for one round, and
`stream_registry::get_data` passes to each what the streams before it have left. It
compares the limit, not what is left of it, with the least that a stream needs; a
half-closed stream ends with 13 bytes whatever it is given, and a stream may use more
than its limit. The round stays within its budget as long as every stream does.
-/

namespace H2pp.Http2

open Utils Hpack

namespace Stream

variable {lowerBound : LowerBound} {stream : Stream} {encoder : Encoder} {limit : Nat} {turn : Turn}

/-- There is room for the frame that ends a half-closed stream. If another stream sends header
fields, there is room for their frame and the window update. -/
def FitsBudget (lowerBound : LowerBound) (stream : Stream) (encoder : Encoder) (limit : Nat) :
    Prop :=
  (stream.httpState = .halfClosed → 13 ≤ limit) ∧
    (stream.Sends limit → (stream.sendPlan lowerBound encoder limit).header ≠ 0 →
      (stream.sendPlan lowerBound encoder limit).used ≤ limit)

instance (lowerBound : LowerBound) (stream : Stream) (encoder : Encoder) (limit : Nat) :
    Decidable (stream.FitsBudget lowerBound encoder limit) :=
  inferInstanceAs (Decidable (_ ∧ _))

/-- A stream uses no more than its limit exactly if there is room for what it sends. -/
theorem used_le_iff (sent : stream.getTxData lowerBound encoder limit = .ok turn) :
    turn.used ≤ limit ↔ stream.FitsBudget lowerBound encoder limit := by
  rcases getTxData_plan sent with ⟨half, used, _⟩ | ⟨half, idle, used, _⟩ | ⟨sends, used, _⟩
  · rw [used, FitsBudget, forall_prop_of_true half, and_iff_left]
    exact fun sends => absurd half sends.1
  · rw [used]
    exact iff_of_true (Nat.zero_le _)
      ⟨fun same => absurd same half, fun sends => absurd sends idle⟩
  · have update : (stream.sendPlan lowerBound encoder limit).update ≤ 13 := plan_update_le
    have large := sends.2
    rw [used, FitsBudget, forall_prop_of_true sends, and_iff_right fun half => absurd half sends.1]
    unfold Plan.used
    omega

end Stream

namespace Client

open StreamRegistry

variable {lowerBound : LowerBound} {client : Client} {limit : Nat}
  {history next : Machine.History Round (Nat × OutFrame)} {slot : Option Nat}

/-- What the streams have used is within the limit, before a turn and after it. -/
def WithinBudget (lowerBound : LowerBound) (limit : Nat)
    (history : Machine.History Round (Nat × OutFrame)) (slot : Option Nat) : Prop :=
  history.state.bytesUsed ≤ limit ∧
    ∀ next ∈ ((scheduler lowerBound limit).advance history slot).toOption,
      next.state.bytesUsed ≤ limit

/-- The stream that has its turn fits in what is left. -/
def FitsTurn (lowerBound : LowerBound) (limit : Nat)
    (history : Machine.History Round (Nat × OutFrame)) (slot : Option Nat) : Prop :=
  ∀ ptr ∈ slot, (history.state.heap ptr).hasTxData = true →
    (history.state.heap ptr).FitsBudget lowerBound history.state.encoder
      (limit - history.state.bytesUsed)

instance (lowerBound : LowerBound) (limit : Nat)
    (history : Machine.History Round (Nat × OutFrame)) (slot : Option Nat) :
    Decidable (FitsTurn lowerBound limit history slot) :=
  inferInstanceAs (Decidable (∀ ptr ∈ slot, _))

/-- A turn that is taken stays within the limit exactly if its stream fits. -/
theorem turn_within_iff (within : history.state.bytesUsed ≤ limit)
    (taken : (scheduler lowerBound limit).advance history slot = .ok next) :
    next.state.bytesUsed ≤ limit ↔ FitsTurn lowerBound limit history slot := by
  obtain ⟨state, out, stepped, rfl⟩ := Machine.advance_eq_ok taken
  have left : sizeSub limit history.state.bytesUsed = limit - history.state.bytesUsed :=
    sizeSub_of_le within
  have added {ptr : Nat} {turn : Turn} (ready : (history.state.heap ptr).hasTxData = true)
      (sent : (history.state.heap ptr).getTxData lowerBound history.state.encoder
        (sizeSub limit history.state.bytesUsed) = .ok turn) :
      history.state.bytesUsed + turn.used ≤ limit ↔
        FitsTurn lowerBound limit history (some ptr) := by
    rw [left] at sent
    simp only [FitsTurn, Option.mem_some_iff, forall_eq', forall_prop_of_true ready]
    rw [← Stream.used_le_iff sent]
    omega
  cases scheduler_spec stepped with
  | skipped idle =>
      refine iff_of_true within fun ptr member ready => ?_
      exact absurd ready (Bool.eq_false_iff.mp (idle ptr member))
  | again ready sent checked => exact added ready sent
  | once ready sent checked => exact added ready sent

/-- A round stays within the limit if every stream fits. -/
theorem round_within {slots : List (Option Nat)} (within : history.state.bytesUsed ≤ limit)
    (fits : (scheduler lowerBound limit).Along (FitsTurn lowerBound limit) history slots) :
    (scheduler lowerBound limit).Along (WithinBudget lowerBound limit) history slots := by
  refine Machine.Along.imp (fun history slot within fits => ⟨within, fun next returned => ?_⟩)
    (fun history slot next within fits taken => (turn_within_iff within taken).mpr fits) within fits
  exact (turn_within_iff within (Outcome.mem_toOption.mp returned)).mpr fits

/-- Every stream of a round that comes to its end within the limit fits. -/
theorem fits_of_within {slots : List (Option Nat)}
    {final : Machine.History Round (Nat × OutFrame)}
    (ran : (scheduler lowerBound limit).run history slots = .ok final)
    (within : (scheduler lowerBound limit).Along (WithinBudget lowerBound limit) history slots) :
    (scheduler lowerBound limit).Along (FitsTurn lowerBound limit) history slots := by
  refine @Machine.Along.imp _ _ _ _ _ _ _ (fun _ => True) ?_ (fun _ _ _ _ _ _ => trivial) _ trivial
    _ (within.and (Machine.along_taken ran))
  rintro history slot - ⟨⟨before, after⟩, next, taken⟩
  exact (turn_within_iff before taken).mp (after next (Outcome.mem_toOption.mpr taken))

/-- In a call of `get_tx_data` the streams stay within the limit they are given together, and
what they use can be taken from the window of the connection. -/
def KeepsBudget (lowerBound : LowerBound) (client : Client) : Prop :=
  client.Turns lowerBound (WithinBudget lowerBound client.streamLimit) ∧
    (client.ServesStreams → ∀ final ∈ ((scheduler lowerBound client.streamLimit).run
        client.firstRound client.registry.queue).toOption,
      final.state.bytesUsed ≤ (takeCommands client.txCommandQueue client.serverWindowSize).2.2)

/-- **The budget of the scheduler.** A call of `get_tx_data` keeps its budget if every stream
fits in what the streams before it have left, and a call that returns only then. -/
theorem budget_kept (lowerBound : LowerBound) (client : Client) :
    (client.Turns lowerBound (FitsTurn lowerBound client.streamLimit) →
        client.KeepsBudget lowerBound) ∧
      ∀ next out, client.getTxData lowerBound = .ok (next, out) → client.KeepsBudget lowerBound →
        client.Turns lowerBound (FitsTurn lowerBound client.streamLimit) := by
  constructor
  · intro fits
    refine ⟨fun serves => round_within (Nat.zero_le _) (fits serves), fun serves final ended => ?_⟩
    refine Nat.le_trans ?_ (Nat.min_le_left _ client.settings.localSettings.maxFrameSize)
    exact @Machine.run_invariant _ _ _ _ _ _
      (fun history => history.state.bytesUsed ≤ client.streamLimit)
      (fun _ _ _ within fits taken => (turn_within_iff within taken).mpr fits) _ _ _
      (Nat.zero_le _) (fits serves) (Outcome.mem_toOption.mp ended)
  · intro next out sent kept serves
    obtain ⟨_, _, _, _, ⟨unserved, _⟩ | ⟨_, final, ran, _⟩⟩ := getTxData_cases sent
    · exact absurd serves unserved
    · exact fits_of_within ran (kept.1 serves)

/-! ## An overrun -/

/-- Commands that fit in the window together are all sent. -/
theorem takeCommands_all {commands : List Bytes} {window : Nat}
    (fits : (commands.map List.length).sum ≤ window) :
    takeCommands commands window = (commands, [], window - (commands.map List.length).sum) := by
  induction commands generalizing window with
  | nil => rfl
  | cons command commands ih =>
      rw [List.map_cons, List.sum_cons] at fits ⊢
      rw [takeCommands, if_neg (by omega), ih (by omega)]
      simp only [Nat.sub_sub]

/-- A PING frame with a payload of zeroes. -/
def pingFrame (payload : Nat) : Span where
  mem index := ([payload / 2 ^ 16, payload / 2 ^ 8, payload, 6].map UInt8.ofNat).getD index.toNat 0
  size := headerSize + payload

/-- What the client answers to PING frames, in bytes: each comes back, and after enough of
them there is a window update. -/
def pingAnswers : DummyWindow → List Nat → Nat
  | _, [] => 0
  | window, payload :: payloads =>
      let counted := window.dec (headerSize + payload)
      (if counted.needUpdate then 13 else 0) + (headerSize + payload) +
        pingAnswers (counted.update 0).2 payloads

/-- A PING frame comes back with the ACK flag. -/
theorem onReceiveFrame_ping (client : Client) {data : Span} (long : headerSize ≤ data.size)
    (type : FrameType.ofByte (data.mem 3) = some .ping) (flags : data.mem 4 &&& Flags.ack = 0) :
    client.onReceiveFrame data = ((client.countReceived data.size).sendCommand
      (data.bytes.modify 4 (· ||| Flags.ack)), none) := by
  rcases FrameAnalyzer.fromBuffer_cases data with ⟨short, _⟩ | ⟨_, frame, analyzed, same⟩
  · exact absurd long (Nat.not_le.mpr short)
  · have unanswered : frame.flags &&& Flags.ack = 0 := by
      rw [FrameAnalyzer.flags, same, Span.mem_first, flags]
    rw [← FrameAnalyzer.typeByte_fromBuffer analyzed] at type
    simp only [onReceiveFrame, analyzed, type, frameHandler, onReceivePing]
    exact if_neg (not_not_intro unanswered)

private theorem onReceiveFrame_pingFrame (client : Client) (payload : Nat) :
    client.onReceiveFrame (pingFrame payload) =
      ((client.countReceived (headerSize + payload)).sendCommand
        ((pingFrame payload).bytes.modify 4 (· ||| Flags.ack)), none) := by
  refine client.onReceiveFrame_ping (Nat.le_add_right _ _) ?_ ?_
  · have byte : (pingFrame payload).mem 3 = 6 := rfl
    rw [byte]
    rfl
  · have byte : (pingFrame payload).mem 4 = 0 := rfl
    rw [byte]
    decide

/-- PING frames are answered with commands, and change nothing else that sending depends
on. -/
theorem run_pings (client : Client) (emitted : List Tx) (payloads : List Nat) :
    ∃ localWindow commands,
      (machine lowerBound).run ⟨client, emitted⟩
          (payloads.map fun payload => .receiveFrame (pingFrame payload)) =
        .ok ⟨{ client with localWindow, txCommandQueue := commands }, emitted⟩ ∧
      (commands.map List.length).sum =
        (client.txCommandQueue.map List.length).sum + pingAnswers client.localWindow payloads := by
  induction payloads generalizing client with
  | nil => exact ⟨client.localWindow, client.txCommandQueue, rfl, rfl⟩
  | cons payload payloads ih =>
      -- what the first frame leaves: a command of its size, after an update if one is due
      have counted : ((client.countReceived (headerSize + payload)).txCommandQueue.map
          List.length).sum = (client.txCommandQueue.map List.length).sum +
          if (client.localWindow.dec (headerSize + payload)).needUpdate then 13 else 0 := by
        rw [countReceived_eq, List.map_append, List.sum_append, List.map_map,
          ← (Stream.update_size _ 0).2, Stream.outSize, List.length_flatMap]
        rfl
      have window : (client.countReceived (headerSize + payload)).localWindow =
          ((client.localWindow.dec (headerSize + payload)).update 0).2 := by
        rw [countReceived_eq]
      have reacted : client.react (.receiveFrame (pingFrame payload)) =
          .ok ((client.countReceived (headerSize + payload)).sendCommand
            ((pingFrame payload).bytes.modify 4 (· ||| Flags.ack))) := by
        rw [react, onReceiveFrame_pingFrame]
        rfl
      obtain ⟨localWindow, commands, ran, total⟩ :=
        ih ((client.countReceived (headerSize + payload)).sendCommand
          ((pingFrame payload).bytes.modify 4 (· ||| Flags.ack)))
      refine ⟨localWindow, commands, ?_, ?_⟩
      · simp only [List.map_cons, Machine.run, Machine.advance, machine, reacted, Outcome.ok_bind,
          List.append_nil]
        refine ran.trans ?_
        rw [countReceived_eq]
        rfl
      · rw [total, sendCommand, List.map_append, List.sum_append, counted, pingAnswers]
        simp only [List.map_cons, List.map_nil, List.sum_cons, List.sum_nil, List.length_modify,
          Span.length_bytes, window]
        have size : (pingFrame payload).size = headerSize + payload := rfl
        omega

/-- All commands are sent, and the streams use more than is left. -/
theorem not_keepsBudget {commands : List Bytes} {window : Nat}
    {final : Machine.History Round (Nat × OutFrame)}
    (all : takeCommands client.txCommandQueue client.serverWindowSize = (commands, [], window))
    (large : 2 * headerSize ≤ window)
    (small : window ≤ client.settings.localSettings.maxFrameSize)
    (ran : (scheduler lowerBound window).run client.firstRound client.registry.queue = .ok final)
    (exceeded : window < final.state.bytesUsed) :
    client.ServesStreams ∧ client.streamLimit = window ∧ ¬ client.KeepsBudget lowerBound := by
  have limit : client.streamLimit = window := by
    rw [streamLimit, all]
    exact Nat.min_eq_left small
  have serves : client.ServesStreams := by
    rw [ServesStreams, all, limit]
    exact ⟨rfl, large⟩
  refine ⟨serves, limit, fun kept => ?_⟩
  have within := kept.2 serves final (Outcome.mem_toOption.mpr (by rw [limit]; exact ran))
  rw [all] at within
  exact absurd within (Nat.not_le.mpr exceeded)

/-- Two requests are answered, so both streams are half-closed. -/
def twoAnswered : List Event :=
  [.connected, .send (sampleRequest .get [] []), .send (sampleRequest .get [] []), .getTxData,
    frameRead 1 5 1 [0x88], frameRead 1 5 3 [0x88]]

/-- PING frames of the server, which are answered with all of the window but 20 bytes. -/
def drained : List Event :=
  twoAnswered ++ [16384, 16384, 16384, 16260].map fun payload => .receiveFrame (pingFrame payload)

/-- With a limit of 20 bytes, two half-closed streams end with 13 bytes each. -/
theorem budget_overrun :
    ∃ last, (machine .linear).run start drained = .ok last ∧
      last.state.ServesStreams ∧ last.state.streamLimit = 20 ∧
      (∃ final, (scheduler .linear 20).run last.state.firstRound last.state.registry.queue =
        .ok final ∧ final.state.bytesUsed = 26) ∧
      ¬ last.state.KeepsBudget .linear := by
  have passes : ((machine .linear).run start twoAnswered).toOption.any (fun middle =>
      decide (middle.state.txCommandQueue = [] ∧ middle.state.serverWindowSize = 65507 ∧
        pingAnswers middle.state.localWindow [16384, 16384, 16384, 16260] = 65487 ∧
        middle.state.settings.localSettings.maxFrameSize = 16384) &&
      ((scheduler .linear 20).run middle.state.firstRound middle.state.registry.queue).toOption.any
        (fun final => decide (final.state.bytesUsed = 26))) = true := by
    decide +kernel
  obtain ⟨middle, ran, checks⟩ := Outcome.exists_ok_of_any passes
  rw [Bool.and_eq_true] at checks
  obtain ⟨empty, window, total, largest⟩ := of_decide_eq_true checks.1
  obtain ⟨final, round, used⟩ := Outcome.exists_ok_of_any checks.2
  have exceeded : final.state.bytesUsed = 26 := of_decide_eq_true used
  obtain ⟨localWindow, commands, pings, sum⟩ := @run_pings .linear middle.state middle.emitted
    [16384, 16384, 16384, 16260]
  rw [empty, total] at sum
  have all : takeCommands commands middle.state.serverWindowSize = (commands, [], 20) := by
    rw [window, takeCommands_all (Nat.le_trans (Nat.le_of_eq sum) (by decide)), sum]
    rfl
  obtain ⟨serves, limit, missed⟩ := @not_keepsBudget .linear
    { middle.state with localWindow, txCommandQueue := commands } commands 20 final all (by decide)
    (by rw [largest]; decide) round (by rw [exceeded]; decide)
  exact ⟨_, (Machine.run_append ran _).trans pings, serves, limit, ⟨final, round, exceeded⟩, missed⟩

end Client

end H2pp.Http2

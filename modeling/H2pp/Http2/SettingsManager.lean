import H2pp.Http2.FrameBuilder

/-! # Settings

`settings_manager.cpp`. The client sends its settings and waits for their
acknowledgement and, if asked to, for the settings of the server. The handler that
waits for both is called at most once per exchange.
-/

namespace H2pp.Http2

open Utils

/-- `settings`, with the values of the two enumerations as they are stored. -/
structure Settings where
  headerTableSize : Nat := 4096
  enablePush : Nat := 0
  maxConcurrentStreams : Nat := 100
  initialWindowSize : Nat := 65535
  maxFrameSize : Nat := 16384
  maxHeaderListSize : Nat := 2 ^ 32 - 1
  connectionProtocol : Nat := 0
  deriving DecidableEq, Repr

/-- `settings_manager`. `settingsTimer` tells whether the timer is waiting, and
`settingsHandler` whether a handler is. -/
structure SettingsManager where
  localSettings : Settings
  remoteSettings : Settings
  needRemoteSync : Bool
  localSettingsAck : Bool
  remoteSettingsGot : Bool
  settingsTimer : Bool
  settingsHandler : Bool
  deriving DecidableEq, Repr

namespace SettingsManager

/-- `settings_manager(context)`. -/
def create : SettingsManager := ⟨{}, {}, true, false, false, false, false⟩

/-- `finished(ec)`: the code the handler is called with, if there is one. -/
def finished (manager : SettingsManager) (ec : ErrorCode) : SettingsManager × Option ErrorCode :=
  if manager.settingsHandler then ({ manager with settingsHandler := false }, some ec)
  else (manager, none)

/-- `cancel(ec)`. -/
def cancel (manager : SettingsManager) (ec : ErrorCode) : SettingsManager × Option ErrorCode :=
  { manager with settingsTimer := false }.finished ec

/-- The timer's handler, when it was not cancelled. -/
def onTimeout (manager : SettingsManager) : SettingsManager × Option ErrorCode :=
  if manager.settingsTimer then
    { manager with settingsTimer := false }.finished .settingsTimeout
  else (manager, none)

/-- `initiate_sync_settings(local, remote_sync, handler)`. -/
def initiateSyncSettings (manager : SettingsManager) (settings : Settings) (remoteSync : Bool) :
    Except Failure (SettingsManager × OutFrame) :=
  if manager.settingsHandler then
    .error (.systemError (.asio .inProgress) "Sync settings in the progress")
  else
    .ok ({ manager with
        localSettings := settings
        settingsHandler := true
        needRemoteSync := remoteSync
        localSettingsAck := false
        remoteSettingsGot := !remoteSync
        settingsTimer := true },
      FrameBuilder.settings [(1, settings.headerTableSize), (2, settings.enablePush),
        (3, settings.maxConcurrentStreams), (4, settings.initialWindowSize),
        (5, settings.maxFrameSize), (6, settings.maxHeaderListSize)])

/-- The items of a SETTINGS frame: type and value. -/
def readItems (frame : FrameAnalyzer) : List (Nat × Nat) :=
  (List.range (frame.payloadSize / 6)).map fun index =>
    let offset := headerSize + 6 * index
    ((frame.buffer.mem offset).toNat * 2 ^ 8 + (frame.buffer.mem (offset + 1 : Nat)).toNat,
      readBig32 frame.buffer (offset + 2))

/-- The `switch` over the type of an item. -/
def applyItem (remote : Settings) (item : Nat × Nat) : Settings :=
  match item.1 with
  | 1 => { remote with headerTableSize := item.2 }
  | 2 => { remote with enablePush := if item.2 = 0 then 0 else nativeToBig32 1 }
  | 3 => { remote with maxConcurrentStreams := item.2 }
  | 4 => { remote with initialWindowSize := item.2 }
  | 5 => { remote with maxFrameSize := item.2 }
  | 6 => { remote with maxHeaderListSize := item.2 }
  | 8 => { remote with connectionProtocol := if item.2 = 0 then 0 else nativeToBig32 1 }
  | _ => remote

/-- `on_settings_frame(data)`, with the analyzer over `data`: the acknowledgement to
send, and the code the handler is called with. Settings of the server do not lead to
the check of what has arrived. -/
def onSettingsFrame (manager : SettingsManager) (frame : FrameAnalyzer) :
    SettingsManager × Option OutFrame × Option ErrorCode :=
  if frame.flags &&& Flags.ack ≠ 0 then
    let manager := { manager with localSettingsAck := true, settingsTimer := false }
    if manager.needRemoteSync && manager.remoteSettingsGot && manager.localSettingsAck ||
        !manager.needRemoteSync && manager.localSettingsAck then
      let (manager, called) := manager.finished .success
      (manager, none, called)
    else (manager, none, none)
  else
    ({ manager with
        remoteSettings := (readItems frame).foldl applyItem manager.remoteSettings
        remoteSettingsGot := true },
      some FrameBuilder.settingsAck, none)

/-! ## The exchange of settings

The handler is to be called as soon as both the settings of the server and the
acknowledgement have arrived. What has arrived is checked on an acknowledgement only, so
settings that come last go unnoticed.
-/

/-- The frame is an acknowledgement. -/
def isAck (frame : FrameAnalyzer) : Bool := frame.flags &&& Flags.ack ≠ 0

/-- The manager after some frames, and the codes the handler was called with. -/
def onFrames : SettingsManager → List FrameAnalyzer → SettingsManager × List ErrorCode
  | manager, [] => (manager, [])
  | manager, frame :: frames =>
      let step := manager.onSettingsFrame frame
      let rest := onFrames step.1 frames
      (rest.1, step.2.2.toList ++ rest.2)

/-- An acknowledgement comes after settings, or at all if settings have come before. -/
def completes : Bool → List FrameAnalyzer → Bool
  | _, [] => false
  | got, frame :: frames =>
      if isAck frame then got || completes got frames else completes true frames

private theorem onFrames_done {manager : SettingsManager} (done : manager.settingsHandler = false)
    (frames : List FrameAnalyzer) : (manager.onFrames frames).2 = [] := by
  induction frames generalizing manager with
  | nil => rfl
  | cons frame frames ih =>
      have step : (manager.onSettingsFrame frame).1.settingsHandler = false ∧
          (manager.onSettingsFrame frame).2.2 = none := by
        simp only [onSettingsFrame, finished, done, Bool.false_eq_true, ↓reduceIte]
        split
        · split <;> exact ⟨rfl, rfl⟩
        · exact ⟨rfl, rfl⟩
      rw [onFrames, step.2, Option.toList_none, List.nil_append]
      exact ih step.1

/-- While the handler waits for both, it is called exactly if the frames complete what
has arrived so far. -/
theorem onFrames_calls {manager : SettingsManager} (waiting : manager.settingsHandler = true)
    (sync : manager.needRemoteSync = true) (frames : List FrameAnalyzer) :
    (manager.onFrames frames).2 =
      if completes manager.remoteSettingsGot frames then [.success] else [] := by
  induction frames generalizing manager with
  | nil => rfl
  | cons frame frames ih =>
      rw [onFrames, completes]
      by_cases ack : isAck frame = true
      · have flag : frame.flags &&& Flags.ack ≠ 0 := of_decide_eq_true ack
        cases got : manager.remoteSettingsGot with
        | true =>
            simp only [onSettingsFrame, if_pos flag, sync, got, finished, waiting, if_pos ack,
              Bool.and_self, Bool.true_or, ↓reduceIte, Option.toList_some]
            rw [onFrames_done rfl, List.append_nil]
        | false =>
            simp only [onSettingsFrame, if_pos flag, sync, got, if_pos ack, Bool.and_false,
              Bool.false_and, Bool.not_true, Bool.or_self, Bool.false_eq_true, Bool.false_or,
              ↓reduceIte, Option.toList_none, List.nil_append]
            exact ih waiting rfl
      · have flag : ¬ frame.flags &&& Flags.ack ≠ 0 := fun set => ack (decide_eq_true set)
        simp only [onSettingsFrame, if_neg flag, if_neg ack, Option.toList_none, List.nil_append]
        exact ih waiting sync

private theorem completes_true (frames : List FrameAnalyzer) :
    completes true frames = frames.any isAck := by
  induction frames with
  | nil => rfl
  | cons frame frames ih =>
      rw [completes, List.any_cons, ih, Bool.true_or]
      cases isAck frame <;> rfl

/-- Acknowledgements alone complete nothing. -/
theorem completes_acks {acks : List FrameAnalyzer} (all : ∀ frame ∈ acks, isAck frame = true)
    (frames : List FrameAnalyzer) : completes false (acks ++ frames) = completes false frames := by
  induction acks with
  | nil => rfl
  | cons ack acks ih =>
      rw [List.cons_append, completes, if_pos (all ack List.mem_cons_self), Bool.false_or]
      exact ih fun frame member => all frame (List.mem_cons_of_mem _ member)

/-- The handler has been called once, with success, if both an acknowledgement and
settings are among the frames, and has not been called otherwise. -/
def Answered (manager : SettingsManager) (frames : List FrameAnalyzer) : Prop :=
  (manager.onFrames frames).2 =
    if frames.any isAck && frames.any (fun frame => !isAck frame) then [.success] else []

instance (manager : SettingsManager) (frames : List FrameAnalyzer) :
    Decidable (manager.Answered frames) := inferInstanceAs (Decidable (_ = _))

/-- Settings that come first are noticed with the first acknowledgement. -/
theorem completes_settings_first {first : FrameAnalyzer} (settings : isAck first = false)
    (frames : List FrameAnalyzer) :
    completes false (first :: frames) =
      ((first :: frames).any isAck && (first :: frames).any fun frame => !isAck frame) := by
  rw [completes, settings, if_neg Bool.false_ne_true, completes_true, List.any_cons,
    List.any_cons, settings, Bool.false_or, Bool.not_false, Bool.true_or, Bool.and_true]

private theorem any_settings_acks {acks : List FrameAnalyzer}
    (all : ∀ frame ∈ acks, isAck frame = true) :
    acks.any (fun frame => !isAck frame) = false := by
  rw [List.any_eq_false]
  intro frame member
  rw [all frame member]
  exact Bool.false_ne_true

/-- **Settings synchronisation.** After `initiate_sync_settings` with `remote_sync`, the
handler is called at the right time, once, for exactly those sequences of frames that
begin with settings or are acknowledgements only. -/
theorem settings_answered_iff {manager after : SettingsManager} {settings : Settings}
    {sent : OutFrame} (started : manager.initiateSyncSettings settings true = .ok (after, sent))
    (frames : List FrameAnalyzer) :
    (∀ count, after.Answered (frames.take count)) ↔
      ∀ first ∈ frames.head?, isAck first = true → ∀ frame ∈ frames, isAck frame = true := by
  obtain ⟨waiting, sync, got⟩ : after.settingsHandler = true ∧ after.needRemoteSync = true ∧
      after.remoteSettingsGot = false := by
    rw [initiateSyncSettings] at started
    split at started
    · cases started
    · cases started
      exact ⟨rfl, rfl, rfl⟩
  simp only [Answered, onFrames_calls waiting sync, got]
  constructor
  · intro answered first front ack frame member
    by_contra settings
    -- The handler is not called when the first settings come, which is too late for it.
    obtain ⟨next, found⟩ := Option.isSome_iff_exists.mp
      (List.find?_isSome (p := fun frame => !isAck frame) |>.mpr
        ⟨frame, member, by simp [settings]⟩)
    obtain ⟨notAck, acks, later, rfl, all⟩ := List.find?_eq_some_iff_append.mp found
    have allAcks : ∀ frame ∈ acks, isAck frame = true := fun frame member => by
      simpa using all frame member
    have cut : (acks ++ next :: later).take (acks.length + 1) = acks ++ [next] := by
      rw [List.take_length_add_append, List.take_succ_cons, List.take_zero]
    have unnoticed : completes false (acks ++ [next]) = false := by
      rw [completes_acks allAcks, completes, if_neg (by simpa using notAck), completes]
    have acknowledged : (acks ++ [next]).any isAck = true := by
      cases acks with
      | nil =>
          cases front
          rw [ack] at notAck
          cases notAck
      | cons other acks =>
          rw [List.cons_append, List.any_cons, allAcks other List.mem_cons_self, Bool.true_or]
    have arrived : (acks ++ [next]).any (fun frame => !isAck frame) = true :=
      List.any_eq_true.mpr ⟨next, List.mem_append_right _ List.mem_cons_self, notAck⟩
    have called := answered (acks.length + 1)
    rw [cut, unnoticed, acknowledged, arrived] at called
    cases called
  · intro allowed count
    cases frames with
    | nil =>
        rw [List.take_nil]
        rfl
    | cons first frames =>
        cases count with
        | zero => rfl
        | succ count =>
            cases ack : isAck first with
            | false =>
                rw [List.take_succ_cons, completes_settings_first ack]
            | true =>
                have acks : ∀ frame ∈ (first :: frames).take (count + 1), isAck frame = true :=
                  fun frame member => allowed first rfl ack frame (List.mem_of_mem_take member)
                have none_complete := completes_acks acks []
                rw [List.append_nil] at none_complete
                rw [none_complete, any_settings_acks acks, Bool.and_false]
                rfl

/-- An empty SETTINGS frame. -/
def emptyFrame (flags : UInt8) : FrameAnalyzer :=
  ⟨Span.ofBytes (fun _ => 0) [0, 0, 0, 4, flags, 0, 0, 0, 0], Nat.le_refl 9, Nat.le_add_right 9 _⟩

/-- Settings and two acknowledgements, after a first exchange has been started. -/
theorem settings_answered_settings_first :
    ∃ after sent, create.initiateSyncSettings {} true = .ok (after, sent) ∧
      ∀ count, after.Answered ([emptyFrame 0, emptyFrame 1, emptyFrame 1].take count) := by
  have started : create.initiateSyncSettings {} true = .ok _ := rfl
  refine ⟨_, _, started, (settings_answered_iff started _).mpr fun first front ack => ?_⟩
  cases front
  exact absurd ack (by decide)

/-- The acknowledgement comes before the settings, and the handler is never called. -/
theorem settings_unanswered_ack_first :
    ∃ after sent, create.initiateSyncSettings {} true = .ok (after, sent) ∧
      (after.onFrames [emptyFrame 1, emptyFrame 0]).2 = [] ∧
      ¬ after.Answered [emptyFrame 1, emptyFrame 0] :=
  ⟨_, _, rfl, by decide, by decide⟩

end SettingsManager

end H2pp.Http2

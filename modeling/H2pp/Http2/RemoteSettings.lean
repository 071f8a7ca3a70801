import H2pp.Http2.Commands
import H2pp.Http2.Shutdown
import Mathlib.Data.List.Induction

/-! # The settings of the server

Settings come in any number of SETTINGS frames, at any time. The client keeps the last value
of each, and a request is sent with the window that was announced last. Nothing else changes
them: not an acknowledgement, not a timer, not the end of a connection.
-/

namespace H2pp.Http2

open Utils Hpack

namespace SettingsManager

/-- The last value of a setting among some items. -/
def latest (type unset : Nat) (items : List (Nat × Nat)) : Nat :=
  ((items.filter (·.1 = type)).getLast?.map Prod.snd).getD unset

private theorem latest_concat (type unset : Nat) (items : List (Nat × Nat)) (item : Nat × Nat) :
    latest type unset (items ++ [item]) =
      if item.1 = type then item.2 else latest type unset items := by
  unfold latest
  rw [List.filter_append]
  by_cases same : item.1 = type
  · rw [if_pos same, List.filter_singleton, decide_eq_true same, cond_true, List.getLast?_concat]
    rfl
  · rw [if_neg same, List.filter_singleton, decide_eq_false same, cond_false, List.append_nil]

private theorem applyItem_initialWindowSize (settings : Settings) (item : Nat × Nat) :
    (applyItem settings item).initialWindowSize =
      if item.1 = 4 then item.2 else settings.initialWindowSize := by
  by_cases window : item.1 = 4
  · rw [if_pos window]
    simp only [applyItem, window]
  · rw [if_neg window]
    unfold applyItem
    split
    case h_4 same => exact absurd same window
    all_goals rfl

/-- The items leave the window that comes last among them. -/
theorem foldl_initialWindowSize (settings : Settings) (items : List (Nat × Nat)) :
    (items.foldl applyItem settings).initialWindowSize =
      latest 4 settings.initialWindowSize items := by
  induction items using List.reverseRecOn with
  | nil => rfl
  | append_singleton items item ih =>
      rw [List.foldl_append, List.foldl_cons, List.foldl_nil, applyItem_initialWindowSize,
        latest_concat, ih]

end SettingsManager

namespace Client

variable {lowerBound : LowerBound} {client next : Client} {event : Event}

/-- The settings that an event brings. -/
def announced : Event → List (Nat × Nat)
  | .receiveFrame data =>
      match FrameAnalyzer.fromBuffer data with
      | .error _ => []
      | .ok frame =>
          if FrameType.ofByte frame.typeByte = some .settings then
            SettingsManager.announcedIn frame
          else []
  | _ => []

/-- What the client knows of the settings of the server. -/
def known (client : Client) : Settings := client.settings.remoteSettings

/-- Only a SETTINGS frame changes them, by its items. -/
theorem settingsAfter_remoteSettings (client : Client) (event : Event) :
    (client.settingsAfter event).remoteSettings =
      (announced event).foldl SettingsManager.applyItem client.known := by
  cases event with
  | syncSettings remoteSync =>
      simp only [settingsAfter, SettingsManager.initiateSyncSettings]
      cases client.settings.settingsHandler with
      | true => rfl
      | false => rfl
  | settingsTimeout => exact client.settings.onTimeout_settings.2
  | receiveFrame data =>
      simp only [settingsAfter, announced]
      cases FrameAnalyzer.fromBuffer data with
      | error failure => rfl
      | ok frame =>
          simp only
          cases FrameType.ofByte frame.typeByte with
          | none => rfl
          | some type =>
              cases type with
              | settings => exact (client.settings.onSettingsFrame_settings frame).2
              | _ => rfl
  | disconnect ec =>
      simp only [settingsAfter]
      split
      · rfl
      · exact (client.settings.cancel_settings ec).2
  | _ => rfl

/-- **A step.** The items that it brings are applied in order. -/
theorem step_known {out : List Tx}
    (stepped : (machine lowerBound).step client event = .ok (next, out)) :
    next.known = (announced event).foldl SettingsManager.applyItem client.known :=
  (step_part (·.settings.remoteSettings) (fun core ec => (core.disconnected_settings ec).2)
    (fun _ _ => rfl) stepped).trans (client.settingsAfter_remoteSettings event)

/-- What is known after a run is what its events have brought. -/
theorem run_known {history last : Machine.History Client Tx} {events : List Event}
    (ran : (machine lowerBound).run history events = .ok last) :
    last.state.known =
      (events.flatMap announced).foldl SettingsManager.applyItem history.state.known := by
  induction events generalizing history with
  | nil =>
      cases ran
      rfl
  | cons event events ih =>
      obtain ⟨middle, taken, rest⟩ := Outcome.bind_eq_ok.mp ran
      obtain ⟨state, out, stepped, rfl⟩ := Machine.advance_eq_ok taken
      rw [ih rest, step_known stepped, List.flatMap_cons, List.foldl_append]

/-- **Settings.** After every run the client knows exactly what the SETTINGS frames have
said, the later ones overriding the earlier ones, and the next request starts with the window
announced last, or with 65535 bytes if none was. -/
theorem windows_announced (lowerBound : LowerBound) (events : List Event)
    (last : Machine.History Client Tx)
    (ran : (machine lowerBound).run opening events = .ok last) :
    last.state.settings.remoteSettings =
        (events.flatMap announced).foldl SettingsManager.applyItem {} ∧
      ∀ request next, last.state.initiateSend request = .ok next →
        (next.registry.heap last.state.registry.size).remoteWindow =
          SettingsManager.latest 4 65535 (events.flatMap announced) := by
  have known : last.state.settings.remoteSettings =
      (events.flatMap announced).foldl SettingsManager.applyItem {} := run_known ran
  refine ⟨known, fun request next accepted => ?_⟩
  unfold initiateSend at accepted
  split at accepted
  · cases accepted
  · cases accepted
    have created : (last.state.registry.addStream last.state.nextStreamId
        (Stream.create last.state.nextStreamId last.state.settings.remoteSettings.initialWindowSize
          last.state.settings.localSettings.initialWindowSize request)).heap
          last.state.registry.size =
        Stream.create last.state.nextStreamId last.state.settings.remoteSettings.initialWindowSize
          last.state.settings.localSettings.initialWindowSize request :=
      Function.update_self _ _ _
    rw [created, Stream.create, known]
    exact SettingsManager.foldl_initialWindowSize {} _

/-- The server announces a window of 60 bytes, and later one of 256 with another table size. -/
def announcements : List Event :=
  [.syncSettings true, frameRead 4 0 0 [0, 4, 0, 0, 0, 60], frameRead 4 1 0 [], .connected,
    frameRead 4 0 0 [0, 4, 0, 0, 1, 0, 0, 1, 0, 0, 0, 0]]

/-- The window that was announced last is that of the next request. -/
theorem windows_announced_announcements :
    ∃ last next, (machine .linear).run opening announcements = .ok last ∧
      last.state.initiateSend (sampleRequest .get [] []) = .ok next ∧
      (next.registry.heap last.state.registry.size).remoteWindow = 256 := by
  have passes : ((machine .linear).run opening announcements).toOption.any (fun last => decide
      (last.state.isConnected = true)) = true := by
    decide +kernel
  obtain ⟨last, ran, checks⟩ := Outcome.exists_ok_of_any passes
  have connected := of_decide_eq_true checks
  have accepted : last.state.initiateSend (sampleRequest .get [] []) = .ok
      (last.state.called (last.state.initiateSend (sampleRequest .get [] []))) := by
    rw [initiateSend, connected]
    rfl
  refine ⟨last, _, ran, accepted, ?_⟩
  rw [(windows_announced .linear announcements last ran).2 _ _ accepted]
  decide +kernel

end Client

end H2pp.Http2

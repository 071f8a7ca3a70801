import H2pp.Hpack.EncoderRounds
import H2pp.Http2.Scheduling

/-! # Rounds that send nothing

When `get_tx_data` has returned nothing, it returns nothing again until something else
happens: the turns of the streams have changed neither the encoder nor what the streams
wait for.
-/

namespace H2pp.Http2

open Utils Hpack

namespace Stream

variable {lowerBound : LowerBound} {stream : Stream} {encoder : Encoder} {limit : Nat}
  {turn : Turn}

/-- A window for which no update is sent stays as it is. -/
theorem opened_opened (due : (stream.localWindow.update stream.httpId).1 = none) :
    (stream.opened.localWindow.update stream.opened.httpId).1 = none ∧
      stream.opened.opened = stream.opened := by
  have same : (stream.localWindow.update stream.httpId).2 = stream.localWindow := by
    unfold DummyWindow.update at due ⊢
    split at due
    · cases due
    · rename_i early
      rw [if_neg early]
  simp only [opened, same, due, and_self]

/-- A header phase that sends nothing only opens the stream. -/
theorem headerPhase_unsent (sent : stream.headerPhase lowerBound encoder limit = .ok turn)
    (nothing : turn.out = []) :
    turn.stream = stream.opened ∧ turn.encoder = encoder ∧ turn.used = 0 ∧
      turn.stream.headerPhase lowerBound encoder limit = .ok turn := by
  obtain ⟨headers, prepared, rest⟩ := Outcome.bind_eq_ok.mp sent
  have result := Except.ok.inj rest
  rw [← result] at nothing
  obtain ⟨noUpdate, noHeaders⟩ := List.append_eq_nil_iff.mp nothing
  have due : (stream.localWindow.update stream.httpId).1 = none :=
    Option.toList_eq_nil_iff.mp noUpdate
  have unchanged : headers = ⟨stream.opened, [], encoder, 0⟩ := by
    split at prepared
    · cases prepareHeaders_spec prepared with
      | nothing encoded => rw [Encoder.encode_none encoded]
      | headers => cases noHeaders
      | continuation => cases noHeaders
      | closing => cases noHeaders
    · cases prepared
      rfl
  obtain ⟨again, fixed⟩ := opened_opened due
  have same : turn = ⟨stream.opened, [], encoder, 0⟩ := by
    rw [← result, unchanged, due]
    rfl
  have repeated : stream.opened.headerPhase lowerBound encoder limit = .ok turn := by
    rw [← sent, headerPhase, headerPhase, fixed, again, due]
    rfl
  rw [same] at repeated ⊢
  exact ⟨rfl, rfl, rfl, repeated⟩

/-- The two phases of a turn, for a stream that is not marked. -/
theorem getTxData_of_phases {headers body : Turn} (free : stream.isScheduled = false)
    (half : stream.httpState ≠ .halfClosed) (large : 16 < min limit stream.remoteWindow)
    (first : stream.headerPhase lowerBound encoder (min limit stream.remoteWindow) = .ok headers)
    (second : bodyPhase headers (min limit stream.remoteWindow) = .ok body) :
    stream.getTxData lowerBound encoder limit = .ok { body with
      stream := { body.stream with
        remoteWindow := sizeSub body.stream.remoteWindow body.used } } := by
  have same : { stream with isScheduled := false } = stream := by
    rw [← free]
  exact (getTxData_eq_ok_iff ⟨half, large⟩).mpr ⟨headers, body, same.symm ▸ first, second, rfl⟩

/-- A turn that sends nothing changes neither the encoder nor the limit, and the next one
sends nothing either. -/
theorem getTxData_unsent (sent : stream.getTxData lowerBound encoder limit = .ok turn)
    (nothing : turn.out = []) :
    turn.encoder = encoder ∧ turn.used = 0 ∧
      turn.stream.getTxData lowerBound encoder limit = .ok turn := by
  rcases getTxData_spec sent with
    ⟨-, rfl⟩ | ⟨-, -, rfl⟩ | ⟨half, large, headers, body, first, second, rfl⟩
  · cases nothing
  · exact ⟨rfl, rfl, sent⟩
  · have unready : body = headers := by
      unfold bodyPhase at second
      split at second
      · obtain ⟨result, _, same⟩ := Outcome.bind_eq_ok.mp second
        cases same
        exact absurd nothing (List.append_ne_nil_of_right_ne_nil _ (List.cons_ne_nil _ _))
      · cases second
        rfl
    subst unready
    obtain ⟨opens, kept, unused, again⟩ := headerPhase_unsent first nothing
    have left : { body.stream with
        remoteWindow := sizeSub body.stream.remoteWindow body.used } = body.stream := by
      rw [opens, unused]
      simp only [opened, sizeSub_zero]
    obtain ⟨active, free, same⟩ : body.stream.httpState ≠ .halfClosed ∧
        body.stream.isScheduled = false ∧ body.stream.remoteWindow = stream.remoteWindow := by
      rw [opens]
      exact ⟨by simp [opened], rfl, rfl⟩
    rw [← same] at large second again
    have phases := getTxData_of_phases free active large again second
    rw [left] at phases ⊢
    exact ⟨kept, unused, phases⟩

/-- The turns of the stream send nothing. -/
def Silent (lowerBound : LowerBound) (encoder : Encoder) (limit : Nat) (stream : Stream) : Prop :=
  ∀ turn, stream.getTxData lowerBound encoder limit = .ok turn → turn.out = []

/-- A stream whose turn has sent nothing is silent, with or without a mark. -/
theorem silent_of_unsent (sent : stream.getTxData lowerBound encoder limit = .ok turn)
    (nothing : turn.out = []) :
    turn.stream.Silent lowerBound encoder limit ∧
      turn.stream.marked.Silent lowerBound encoder limit := by
  obtain ⟨-, -, again⟩ := getTxData_unsent sent nothing
  have silent : turn.stream.Silent lowerBound encoder limit := by
    intro other sent
    cases again.symm.trans sent
    exact nothing
  exact ⟨silent, silent⟩

end Stream

namespace StreamRegistry

variable {lowerBound : LowerBound} {encoder : Encoder} {limit : Nat}

/-- Nothing has been sent in the round: the encoder and the limit are those of its start,
and the streams that wait for the next round are silent. -/
structure Quiet (lowerBound : LowerBound) (encoder : Encoder) (limit : Nat) (round : Round) :
    Prop where
  unchanged : round.encoder = encoder
  unused : round.bytesUsed = 0
  silent : ∀ ptr ∈ round.nextQueue, (round.heap ptr).Silent lowerBound encoder limit

/-- Nothing has been sent when a round begins. -/
theorem Quiet.start (heap : Nat → Stream) :
    Quiet lowerBound encoder limit ⟨heap, encoder, 0, []⟩ :=
  ⟨rfl, rfl, fun _ member => absurd member List.not_mem_nil⟩

/-- A turn that sends nothing keeps the round quiet and all silent streams silent. -/
theorem Quiet.served {round next : Round} {slot : Option Nat} {out : List (Nat × OutFrame)}
    (quiet : Quiet lowerBound encoder limit round)
    (served : Served lowerBound limit round slot next out) (nothing : out = []) :
    Quiet lowerBound encoder limit next ∧
      ∀ ptr, (round.heap ptr).Silent lowerBound encoder limit →
        (next.heap ptr).Silent lowerBound encoder limit := by
  obtain ⟨unchanged, unused, silent⟩ := quiet
  have replaced : ∀ ptr {stream : Stream}, stream.Silent lowerBound encoder limit →
      ∀ other, (round.heap other).Silent lowerBound encoder limit →
        (Function.update round.heap ptr stream other).Silent lowerBound encoder limit := by
    intro ptr stream kept other before
    by_cases same : other = ptr
    · rw [same, Function.update_self]
      exact kept
    · rwa [Function.update_of_ne same]
  cases served with
  | skipped => exact ⟨⟨unchanged, unused, silent⟩, fun _ before => before⟩
  | @again ptr turn ready sent checked =>
      rw [unchanged, unused, sizeSub_zero] at sent
      have empty := List.map_eq_nil_iff.mp nothing
      obtain ⟨kept, used, -⟩ := Stream.getTxData_unsent sent empty
      have after := replaced ptr (Stream.silent_of_unsent sent empty).2
      refine ⟨⟨kept, ?_, ?_⟩, after⟩
      · rw [unused, used]
      · intro other member
        rcases List.mem_append.mp member with before | last
        · exact after other (silent other before)
        · simp only [List.mem_singleton.mp last, Function.update_self]
          exact (Stream.silent_of_unsent sent empty).2
  | @once ptr turn ready sent checked =>
      rw [unchanged, unused, sizeSub_zero] at sent
      have empty := List.map_eq_nil_iff.mp nothing
      obtain ⟨kept, used, -⟩ := Stream.getTxData_unsent sent empty
      have after := replaced ptr (Stream.silent_of_unsent sent empty).1
      refine ⟨⟨kept, ?_, fun other member => after other (silent other member)⟩, after⟩
      rw [unused, used]

/-- After a round that has sent nothing, the streams in its queue are silent. -/
theorem quiet_of_run {heap : Nat → Stream} {slots : List (Option Nat)}
    {final : Machine.History Round (Nat × OutFrame)}
    (ran : (scheduler lowerBound limit).run ⟨⟨heap, encoder, 0, []⟩, []⟩ slots = .ok final)
    (nothing : final.emitted = []) : Quiet lowerBound encoder limit final.state := by
  refine @Machine.run_invariant _ _ _ _ _ (fun _ _ => True)
    (fun history => history.emitted = [] → Quiet lowerBound encoder limit history.state)
    ?_ _ _ slots (fun _ => .start heap) (Machine.along_of_mem (fun _ _ => trivial) _) ran nothing
  intro history slot next quiet _ taken empty
  obtain ⟨state, out, stepped, rfl⟩ := Machine.advance_eq_ok taken
  obtain ⟨before, none⟩ := List.append_eq_nil_iff.mp empty
  exact ((quiet before).served (scheduler_spec stepped) none).1

/-- A round over silent streams sends nothing. -/
theorem run_silent {heap : Nat → Stream} {slots : List (Option Nat)}
    {final : Machine.History Round (Nat × OutFrame)}
    (silent : ∀ ptr, some ptr ∈ slots → (heap ptr).Silent lowerBound encoder limit)
    (ran : (scheduler lowerBound limit).run ⟨⟨heap, encoder, 0, []⟩, []⟩ slots = .ok final) :
    final.emitted = [] := by
  refine (@Machine.run_remaining _ _ _ _ _ (fun _ _ => True)
    (fun history slots => history.emitted = [] ∧ Quiet lowerBound encoder limit history.state ∧
      ∀ ptr, some ptr ∈ slots → (history.state.heap ptr).Silent lowerBound encoder limit)
    ?_ _ _ slots ⟨rfl, .start heap, silent⟩ (Machine.along_of_mem (fun _ _ => trivial) _) ran).1
  rintro history slot slots next ⟨empty, quiet, silent⟩ _ taken
  obtain ⟨state, out, stepped, rfl⟩ := Machine.advance_eq_ok taken
  have served := scheduler_spec stepped
  have nothing : out = [] := by
    cases served with
    | skipped => rfl
    | again ready sent checked =>
        rw [quiet.unchanged, quiet.unused, sizeSub_zero] at sent
        rw [silent _ List.mem_cons_self _ sent, List.map_nil]
    | once ready sent checked =>
        rw [quiet.unchanged, quiet.unused, sizeSub_zero] at sent
        rw [silent _ List.mem_cons_self _ sent, List.map_nil]
  obtain ⟨after, kept⟩ := quiet.served served nothing
  refine ⟨List.append_eq_nil_iff.mpr ⟨empty, nothing⟩, after, fun ptr member => ?_⟩
  exact kept ptr (silent ptr (List.mem_cons_of_mem _ member))

end StreamRegistry

namespace Client

variable {lowerBound : LowerBound} {client next : Client}

/-- `get_tx_data` would return something. -/
def Sendable (lowerBound : LowerBound) (client : Client) : Prop :=
  ∃ next out, client.getTxData lowerBound = .ok (next, out) ∧ out ≠ []

instance (lowerBound : LowerBound) (client : Client) : Decidable (client.Sendable lowerBound) :=
  match sent : client.getTxData lowerBound with
  | .error _ => isFalse fun ⟨_, _, other, _⟩ => nomatch sent.symm.trans other
  | .ok (next, out) => decidable_of_iff (out ≠ [])
      ⟨fun nonempty => ⟨next, out, sent, nonempty⟩, fun ⟨_, _, other, nonempty⟩ => by
        cases sent.symm.trans other
        exact nonempty⟩

/-- Commands of which none is sent are all left. -/
theorem takeCommands_none {commands left : List Bytes} {window after : Nat}
    (taken : takeCommands commands window = ([], left, after)) :
    left = commands ∧ after = window := by
  cases commands with
  | nil =>
      cases taken
      exact ⟨rfl, rfl⟩
  | cons command commands =>
      unfold takeCommands at taken
      split at taken
      · cases taken
        exact ⟨rfl, rfl⟩
      · cases taken

/-- When `get_tx_data` has returned nothing, there is nothing to send. -/
theorem not_sendable_of_unsent (sent : client.getTxData lowerBound = .ok (next, [])) :
    ¬ next.Sendable lowerBound := by
  rintro ⟨later, out, again, nonempty⟩
  obtain ⟨commands, left, window, taken, rest⟩ := getTxData_cases sent
  have none_sent : commands = [] := by
    rcases rest with ⟨-, -, out⟩ | ⟨-, final, -, -, out⟩
    · exact List.map_eq_nil_iff.mp out.symm
    · exact List.map_eq_nil_iff.mp (List.append_eq_nil_iff.mp out.symm).1
  subst none_sent
  obtain ⟨rfl, rfl⟩ := takeCommands_none taken
  rcases rest with ⟨-, rfl, -⟩ | ⟨-, final, ran, same, out⟩
  · cases sent.symm.trans again
    exact nonempty rfl
  · -- The second round has the limit of the first, and its streams are silent.
    have quiet := StreamRegistry.quiet_of_run ran (List.map_eq_nil_iff.mp out.symm)
    rw [quiet.unchanged, quiet.unused, sizeSub_zero] at same
    subst same
    obtain ⟨commands, left, window, takenAgain, rest⟩ := getTxData_cases again
    cases taken.symm.trans takenAgain
    rcases rest with ⟨-, -, rfl⟩ | ⟨-, last, ranAgain, -, rfl⟩
    · exact nonempty rfl
    · have silent : ∀ ptr, some ptr ∈ final.state.nextQueue.map some →
          (final.state.heap ptr).Silent lowerBound client.encoder client.streamLimit := by
        intro ptr member
        obtain ⟨other, inside, same⟩ := List.mem_map.mp member
        cases same
        exact quiet.silent ptr inside
      exact nonempty (List.map_eq_nil_iff.mpr (StreamRegistry.run_silent silent ranAgain))

end Client

end H2pp.Http2

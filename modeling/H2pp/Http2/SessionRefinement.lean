import H2pp.Http2.Commands
import H2pp.Http2.Shutdown

/-! # A session is a client with its transport

The session adds the transport to the client: reads are cut into frames, the write chain
asks for data, the coroutine waits for the settings. Seen from the client this is one of its
runs: every step of a session is matched by some events of the client, with the same
output. So what holds in all runs of a client holds in all sessions.
-/

namespace H2pp.Http2

open Utils Hpack

namespace Reader

variable {Session : Type} {handlers : Handlers Session} {keeps : Session → Prop}

/-- A handler that has returned keeps something, and one that has thrown does with the
disconnection that follows. -/
def Settles (handlers : Handlers Session) (keeps : Session → Prop) :
    Session × Option Failure → Prop
  | (session, none) => keeps session
  | (_, some .undefinedBehaviour) => True
  | (session, some failure) => keeps (handlers.initiateDisconnect session (disconnectCode failure))

/-- What the handlers of complete frames keep, together with the disconnection. -/
structure Follows (handlers : Handlers Session) (keeps : Session → Prop) : Prop where
  frame : ∀ session data, keeps session → data.size = headerSize + readLength data →
    Settles handlers keeps (handlers.onReceiveFrame session data)
  data : ∀ session buff, keeps session →
    Settles handlers keeps (handlers.onReceiveDataFrame session buff)
  disconnect : ∀ session ec, keeps session → keeps (handlers.initiateDisconnect session ec)
  write : ∀ session, keeps session → keeps (handlers.initWrite session)

private theorem Follows.rejected (follows : Follows handlers keeps) {session : Session}
    (start : keeps session) (failure : Failure) :
    Settles handlers keeps (session, some failure) := by
  cases failure with
  | undefinedBehaviour => trivial
  | _ => exact follows.disconnect _ _ start

/-- The loop of `on_read` keeps it. -/
theorem readLoop_follows (follows : Follows handlers keeps) {fuel : Nat}
    {state : ReadState Session} (start : keeps state.client) :
    Settles handlers keeps ((readLoop handlers fuel state).1.client,
      (readLoop handlers fuel state).2) := by
  induction fuel generalizing state with
  | zero => exact start
  | succ fuel ih =>
      rw [readLoop]
      split
      · exact start
      split
      · exact follows.rejected start _
      split
      · exact follows.rejected start _
      rename_i frame analyzed _ checked
      split
      · rename_i complete
        split
        · split
          · have settled := follows.data state.client state.ioBuff start
            split
            · rename_i called
              rw [called] at settled
              exact settled
            · rename_i called
              rw [called] at settled
              exact settled
          · have settled := follows.data state.client
              ((Buffer.create frame.buffer.size).commit frame.buffer.bytes) start
            split
            · rename_i called
              rw [called] at settled
              exact settled
            · rename_i called
              rw [called] at settled
              exact ih settled
        · have settled := follows.frame state.client frame.buffer start
            (Nat.le_antisymm frame.adjusted (of_decide_eq_true complete))
          split
          · rename_i called
            rw [called] at settled
            exact settled
          · rename_i called
            rw [called] at settled
            exact ih settled
      · rw [reserve_client]
        exact start

/-- So does a whole call of `on_read`. -/
theorem onRead_follows (follows : Follows handlers keeps) {around : Int → UInt8}
    {session next : Session} {buffer after : Buffer} (start : keeps session)
    (read : onRead handlers around session buffer = .ok (next, after)) : keeps next := by
  unfold onRead at read
  split at read
  · cases read
    exact start
  · have settled := @readLoop_follows _ handlers _ follows buffer.data.length
      ⟨session, buffer, Span.ofBytes around buffer.data, 0⟩ start
    generalize readLoop handlers buffer.data.length
      ⟨session, buffer, Span.ofBytes around buffer.data, 0⟩ = outcome at settled read
    obtain ⟨state, failure⟩ := outcome
    cases failure with
    | none =>
        cases read
        exact follows.write _ settled
    | some failure =>
        cases failure with
        | undefinedBehaviour => cases read
        | _ =>
            cases read
            exact follows.write _ settled

end Reader

namespace Client

variable {lowerBound : LowerBound} {client next : Client}

/-- The client with the flag of its disconnection set or not. -/
def flagged (client : Client) (flag : Bool) : Client := { client with startDisconnect := flag }

/-- An event that does not look at the flag: it neither disconnects nor brings a frame. -/
def Event.isUnflagged : Event → Bool
  | .disconnect _ => false
  | .receiveFrame _ => false
  | .receiveDataFrame _ => false
  | _ => true

@[simp] private theorem flagged_flagged (client : Client) (first second : Bool) :
    (client.flagged first).flagged second = client.flagged second := rfl

@[simp] private theorem flagged_self (client : Client) :
    client.flagged client.startDisconnect = client :=
  rfl

private theorem settingsDone_flagged (client : Client) (called : Option ErrorCode) (flag : Bool) :
    (client.flagged flag).settingsDone called = (client.settingsDone called).flagged flag := by
  unfold settingsDone
  split <;> rfl

private theorem initiateSend_flagged (client : Client) (request : Request) (flag : Bool) :
    (client.flagged flag).initiateSend request =
      (client.initiateSend request).map (flagged · flag) := by
  unfold initiateSend flagged
  cases client.isConnected <;> rfl

private theorem initiatePing_flagged (client : Client) (memory : Bytes) (flag : Bool) :
    (client.flagged flag).initiatePing memory =
      (client.initiatePing memory).map (flagged · flag) := by
  unfold initiatePing flagged
  cases client.isConnected with
  | false => rfl
  | true => cases client.pingHandler <;> rfl

private theorem initiateSyncSettings_flagged (client : Client) (remoteSync flag : Bool) :
    (client.flagged flag).initiateSyncSettings remoteSync =
      (client.initiateSyncSettings remoteSync).map (flagged · flag) := by
  have settings : (client.flagged flag).settings = client.settings := rfl
  unfold initiateSyncSettings
  rw [settings]
  cases client.settings.initiateSyncSettings {} remoteSync <;> rfl

private theorem called_flagged (client : Client) (result : Except Failure Client) (flag : Bool) :
    (client.flagged flag).called (result.map (flagged · flag)) =
      (client.called result).flagged flag := by
  cases result <;> rfl

/-- Such an event does the same with the flag set or not. -/
theorem react_flagged {event : Event} (unflagged : event.isUnflagged = true) (flag : Bool)
    (reacted : client.react event = .ok next) :
    (client.flagged flag).react event = .ok (next.flagged flag) := by
  cases event with
  | disconnect ec => cases unflagged
  | receiveFrame data => cases unflagged
  | receiveDataFrame buff => cases unflagged
  | syncSettings remoteSync =>
      rw [react, initiateSyncSettings_flagged, called_flagged, ← Except.ok.inj reacted]
  | settingsTimeout =>
      rw [← Except.ok.inj reacted]
      exact congrArg Except.ok (settingsDone_flagged
        { client with settings := client.settings.onTimeout.1 } client.settings.onTimeout.2 flag)
  | ping memory => rw [react, initiatePing_flagged, called_flagged, ← Except.ok.inj reacted]
  | send request => rw [react, initiateSend_flagged, called_flagged, ← Except.ok.inj reacted]
  | _ =>
      rw [← Except.ok.inj reacted]
      rfl

/-- A reaction is a step. -/
theorem step_of_react {event : Event} (other : event ≠ .getTxData)
    (reacted : client.react event = .ok next) :
    (machine lowerBound).step client event = .ok (next, []) := by
  cases event with
  | getTxData => exact absurd rfl other
  | _ => exact Outcome.bind_eq_ok.mpr ⟨next, reacted, rfl⟩

private theorem getTxData_flagged (lowerBound : LowerBound) (client : Client) (flag : Bool) :
    (client.flagged flag).getTxData lowerBound =
      (client.getTxData lowerBound).map fun result => (result.1.flagged flag, result.2) := by
  unfold getTxData flagged
  generalize takeCommands client.txCommandQueue client.serverWindowSize = taken
  obtain ⟨sent, left, window⟩ := taken
  simp only
  split
  · rfl
  · split
    · cases client.registry.getData lowerBound client.encoder
        (min window client.settings.localSettings.maxFrameSize) <;> rfl
    · rfl

end Client

namespace Session

variable {lowerBound : LowerBound} {session next : Session}

/-- `init_write` leaves the client and what is under way alone. -/
theorem initWrite_client (session : Session) :
    session.initWrite.client = session.client ∧ session.initWrite.reads = session.reads ∧
      session.initWrite.writes = session.writes := by
  unfold initWrite
  split <;> exact ⟨rfl, rfl, rfl⟩

/-- A session disconnects as its client does, and the transport goes on with what it does. -/
theorem initiateDisconnect_client (session : Session) (ec : ErrorCode) (handler : Bool) :
    (session.initiateDisconnect ec handler).client = session.client.initiateDisconnect ec ∧
      (session.initiateDisconnect ec handler).reads = session.reads ∧
      (session.initiateDisconnect ec handler).writes = session.writes := by
  refine @initiateDisconnect_keeps session (fun next =>
    next.client = session.client.initiateDisconnect ec ∧ next.reads = session.reads ∧
      next.writes = session.writes) ec handler ?_ ?_ fun _ _ _ => ⟨rfl, rfl, rfl⟩
  · intro next same
    obtain ⟨client, reads, writes⟩ := initWrite_client next
    rw [client, reads, writes]
    exact same
  · intro started _
    rw [Client.initiateDisconnect, if_pos started]
    exact ⟨rfl, rfl, rfl⟩

private theorem runPosted_client {out : List Tx}
    (ran : session.runPosted lowerBound = .ok (next, out)) :
    session.client.getTxData lowerBound = .ok (next.client, out) ∧ next.reads = session.reads := by
  obtain ⟨⟨client, txQueue⟩, sent, rest⟩ := Outcome.bind_eq_ok.mp ran
  simp only at rest
  split at rest
  · rename_i nothing
    subst nothing
    cases rest
    split
    · exact ⟨sent, rfl⟩
    · exact ⟨sent, rfl⟩
  · cases rest
    exact ⟨sent, rfl⟩

/-! ## Reads -/

/-- From a client, complete frames and disconnections lead to the client of the session,
while no read is under way. -/
def Reached (lowerBound : LowerBound) (client : Client) (session : Session) : Prop :=
  session.reads = 0 ∧ ∃ seen, (Client.machine lowerBound).Takes client seen session.client [] ∧
    ∀ event ∈ seen, event.Whole

private theorem Reached.event {client : Client} (reached : session.Reached lowerBound client)
    (event : Client.Event) (other : event ≠ .getTxData) (whole : event.Whole)
    (reads : next.reads = session.reads)
    (reacted : session.client.react event = .ok next.client) : next.Reached lowerBound client := by
  obtain ⟨none, seen, takes, wholes⟩ := reached
  refine ⟨reads.trans none, seen ++ [event],
    takes.append (.step (Client.step_of_react other reacted)), ?_⟩
  exact List.forall_mem_append.mpr ⟨wholes, List.forall_mem_singleton.mpr whole⟩

/-- A handler that the client handles a frame with. -/
theorem Reached.settles {client : Client} (reached : session.Reached lowerBound client)
    (event : Client.Event) (other : event ≠ .getTxData) (whole : event.Whole)
    (outcome : Session × Option Failure) (reads : outcome.1.reads = session.reads)
    (reacts : session.client.react event = Client.caught (outcome.1.client, outcome.2))
    (around : Int → UInt8) :
    Reader.Settles (handlers around) (Reached lowerBound client) outcome := by
  obtain ⟨next, failure⟩ := outcome
  cases failure with
  | none => exact reached.event event other whole reads reacts
  | some failure =>
      obtain ⟨same, unread, _⟩ :=
        initiateDisconnect_client next (Reader.disconnectCode failure) false
      cases failure with
      | undefinedBehaviour => trivial
      | _ =>
          refine reached.event event other whole (unread.trans reads) (reacts.trans ?_)
          exact congrArg Except.ok same.symm

/-- What `on_read` calls on a session, its client does with a frame. -/
theorem follows_reached (lowerBound : LowerBound) (client : Client) (around : Int → UInt8) :
    Reader.Follows (handlers around) (Reached lowerBound client) where
  frame session data reached complete :=
    reached.settles (.receiveFrame data) (by rintro ⟨⟩) complete
      ((handlers around).onReceiveFrame session data) rfl rfl around
  data session buff reached :=
    reached.settles (.receiveDataFrame (Span.ofBytes around buff.data)) (by rintro ⟨⟩) trivial
      ((handlers around).onReceiveDataFrame session buff) rfl rfl around
  disconnect session ec reached := by
    obtain ⟨same, reads, _⟩ := initiateDisconnect_client session ec false
    exact reached.event (.disconnect ec) (by rintro ⟨⟩) trivial reads
      (congrArg Except.ok same.symm)
  write session reached := by
    obtain ⟨same, reads, _⟩ := initWrite_client session
    obtain ⟨none, rest⟩ := reached
    exact ⟨reads.trans none, by rw [handlers, same]; exact rest⟩

/-- A read is a run of the client. -/
theorem onDataRead_reached {around : Int → UInt8} {bytes : Bytes} (idle : session.reads = 0)
    (read : session.onDataRead around bytes = .ok next) :
    next.reads ≤ 1 ∧ ∃ seen, (Client.machine lowerBound).Takes session.client seen next.client [] ∧
      ∀ event ∈ seen, event.Whole := by
  obtain ⟨⟨after, inputBuffer⟩, reads, same⟩ := Outcome.bind_eq_ok.mp read
  have start : session.Reached lowerBound session.client :=
    ⟨idle, [], .refl _ _, List.forall_mem_nil _⟩
  obtain ⟨none, seen⟩ := Reader.onRead_follows
    (follows_reached lowerBound session.client around) start reads
  cases same
  unfold initRead
  split
  · exact ⟨Nat.le_trans (Nat.le_of_eq none) (Nat.zero_le 1), seen⟩
  · exact ⟨by rw [none], seen⟩

/-! ## Steps and runs -/

/-- No write fails. -/
def WritesSucceed (history : Machine.History Session Tx) (event : Event) : Prop :=
  ∀ ec, event = .writeError ec → history.state.writes = 0

instance (history : Machine.History Session Tx) : ∀ event, Decidable (WritesSucceed history event)
  | .writeError ec => decidable_of_iff (history.state.writes = 0)
      ⟨fun none _ _ => none, fun succeeds => succeeds ec rfl⟩
  | .synced | .disconnect | .send _ | .ping _ | .settingsTimeout | .streamTimeout _ | .posted
  | .read _ _ | .readError _ | .written | .disconnected => isTrue (by rintro _ ⟨⟩)

/-- A session and a run of its client: they have sent the same, and differ at most in the
flag of the disconnection, which a failed read sets without telling the client. -/
structure Matches (history : Machine.History Session Tx) (seen : List Client.Event)
    (matched : Machine.History Client Tx) : Prop where
  emitted : matched.emitted = history.emitted
  client : history.state.client = matched.state.flagged history.state.client.startDisconnect
  flag : history.state.client.startDisconnect = matched.state.startDisconnect ∨
    history.state.client.startDisconnect = true ∧ history.state.reads = 0
  reads : history.state.reads ≤ 1
  whole : ∀ event ∈ seen, event.Whole

namespace Matches

variable {history : Machine.History Session Tx} {seen : List Client.Event}
  {matched : Machine.History Client Tx}

/-- The client of the session with the flag of the other. -/
theorem state_eq (kept : Matches history seen matched) :
    matched.state = history.state.client.flagged matched.state.startDisconnect := by
  rw [kept.client, Client.flagged_flagged, Client.flagged_self]

/-- A step of the session that its client has no part in. -/
theorem silent (kept : Matches history seen matched)
    (client : next.client = history.state.client) (reads : next.reads ≤ history.state.reads) :
    Matches ⟨next, history.emitted⟩ seen matched where
  emitted := kept.emitted
  client := by rw [client]; exact kept.client
  flag := by
    rw [client]
    rcases kept.flag with same | ⟨started, none⟩
    · exact .inl same
    · exact .inr ⟨started, Nat.le_zero.mp (none ▸ reads)⟩
  reads := Nat.le_trans reads kept.reads
  whole := kept.whole

/-- A step of the session that is one event of its client. -/
theorem reacts (kept : Matches history seen matched) (event : Client.Event)
    (unflagged : event.isUnflagged = true) (other : event ≠ .getTxData) (whole : event.Whole)
    (reacted : history.state.client.react event = .ok next.client)
    (reads : next.reads = history.state.reads) :
    ∃ more after, (Client.machine lowerBound).run matched more = .ok after ∧
      Matches ⟨next, history.emitted⟩ (seen ++ more) after := by
  have steps := Client.react_flagged unflagged matched.state.startDisconnect reacted
  rw [← kept.state_eq] at steps
  have same := Client.react_flagged unflagged history.state.client.startDisconnect reacted
  rw [Client.flagged_self, reacted, Except.ok.injEq] at same
  have flag : next.client.startDisconnect = history.state.client.startDisconnect := by
    rw [same]
    rfl
  refine ⟨[event], _, Machine.Takes.step (Client.step_of_react other steps) matched.emitted, ?_⟩
  refine ⟨by rw [List.append_nil]; exact kept.emitted, ?_, ?_, by rw [reads]; exact kept.reads,
    List.forall_mem_append.mpr ⟨kept.whole, List.forall_mem_singleton.mpr whole⟩⟩
  · rw [Client.flagged_flagged, Client.flagged_self]
  · rw [flag, reads]
    exact kept.flag

/-- The write chain asks for data. -/
theorem sends (kept : Matches history seen matched) {out : List Tx}
    (sent : history.state.client.getTxData lowerBound = .ok (next.client, out))
    (reads : next.reads = history.state.reads) :
    ∃ more after, (Client.machine lowerBound).run matched more = .ok after ∧
      Matches ⟨next, history.emitted ++ out⟩ (seen ++ more) after := by
  have steps := Client.getTxData_flagged lowerBound history.state.client
    matched.state.startDisconnect
  rw [← kept.state_eq, sent] at steps
  have same := Client.getTxData_flagged lowerBound history.state.client
    history.state.client.startDisconnect
  rw [Client.flagged_self, sent] at same
  have flag : next.client.startDisconnect = history.state.client.startDisconnect :=
    congrArg (fun result => result.1.startDisconnect) (Except.ok.inj same)
  refine ⟨[.getTxData], _, Machine.Takes.step steps matched.emitted, ?_⟩
  refine ⟨by rw [kept.emitted], ?_, ?_, by rw [reads]; exact kept.reads,
    List.forall_mem_append.mpr ⟨kept.whole, List.forall_mem_singleton.mpr trivial⟩⟩
  · rw [Client.flagged_flagged, Client.flagged_self]
  · rw [flag, reads]
    exact kept.flag

/-- A read fails. -/
theorem fails (kept : Matches history seen matched) (ec : ErrorCode) {session : Session}
    (client : session.client = history.state.client) (idle : session.reads = 0) :
    Matches ⟨session.failed ec, history.emitted⟩ seen matched := by
  unfold failed
  split
  · exact kept.silent client (by rw [idle]; exact Nat.zero_le _)
  · refine ⟨kept.emitted, ?_, .inr ⟨rfl, idle⟩, by rw [idle]; exact Nat.zero_le _, kept.whole⟩
    rw [client, kept.client]
    rfl

/-- The client of the session after some events, when it was the same before. -/
theorem takes (kept : Matches history seen matched)
    (same : history.state.client.startDisconnect = matched.state.startDisconnect)
    {more : List Client.Event} (reads : next.reads ≤ 1)
    (taken : (Client.machine lowerBound).Takes history.state.client more next.client [])
    (whole : ∀ event ∈ more, event.Whole) :
    ∃ more after, (Client.machine lowerBound).run matched more = .ok after ∧
      Matches ⟨next, history.emitted⟩ (seen ++ more) after := by
  have state : matched.state = history.state.client := by
    rw [kept.state_eq, ← same, Client.flagged_self]
  have ran := taken matched.emitted
  rw [← state, List.append_nil] at ran
  exact ⟨more, _, ran, kept.emitted, rfl, .inl rfl, reads,
    List.forall_mem_append.mpr ⟨kept.whole, whole⟩⟩

end Matches

/-- **A step.** Every step of a session is matched by its client. -/
theorem matches_step {history after : Machine.History Session Tx} {event : Event}
    {seen : List Client.Event} {matched : Machine.History Client Tx}
    (kept : Matches history seen matched) (succeeds : WritesSucceed history event)
    (taken : (machine lowerBound).advance history event = .ok after) :
    ∃ more reached, (Client.machine lowerBound).run matched more = .ok reached ∧
      Matches after (seen ++ more) reached := by
  obtain ⟨next, out, stepped, rfl⟩ := Machine.advance_eq_ok taken
  have same (client : next.client = history.state.client)
      (reads : next.reads ≤ history.state.reads) :
      ∃ more reached, (Client.machine lowerBound).run matched more = .ok reached ∧
        Matches ⟨next, history.emitted⟩ (seen ++ more) reached :=
    ⟨[], matched, rfl, by rw [List.append_nil]; exact kept.silent client reads⟩
  cases step_stepped stepped with
  | idle =>
      rw [List.append_nil]
      exact same rfl (Nat.le_refl _)
  | synced =>
      rw [List.append_nil]
      exact kept.reacts .connected rfl (by rintro ⟨⟩) trivial rfl rfl
  | disconnect =>
      obtain ⟨client, reads, _⟩ := initiateDisconnect_client history.state .success true
      rw [List.append_nil]
      rcases kept.flag with flags | ⟨started, _⟩
      · have step : (Client.machine lowerBound).Takes history.state.client [.disconnect .success]
            (history.state.initiateDisconnect .success true).client [] := by
          rw [client]
          exact .step (Client.step_of_react (by rintro ⟨⟩) rfl)
        exact kept.takes flags (by rw [reads]; exact kept.reads) step
          (List.forall_mem_singleton.mpr trivial)
      · rw [Client.initiateDisconnect, if_pos started] at client
        exact same client (Nat.le_of_eq reads)
  | @send request _ accepted =>
      obtain ⟨client, reads, _⟩ := initWrite_client { history.state with client := _ }
      rw [List.append_nil]
      refine kept.reacts (.send request) rfl (by rintro ⟨⟩) trivial ?_ reads
      rw [Client.react, accepted, client]
      rfl
  | @ping memory _ reacted =>
      rw [List.append_nil]
      exact kept.reacts (.ping memory) rfl (by rintro ⟨⟩) trivial reacted rfl
  | settingsTimeout reacted =>
      rw [List.append_nil]
      exact kept.reacts .settingsTimeout rfl (by rintro ⟨⟩) trivial reacted rfl
  | @streamTimeout ptr _ reacted =>
      rw [List.append_nil]
      exact kept.reacts (.streamTimeout ptr) rfl (by rintro ⟨⟩) trivial reacted rfl
  | posted _ ran =>
      obtain ⟨sent, reads⟩ := runPosted_client ran
      exact kept.sends sent reads
  | read some read =>
      obtain ⟨reads, more, takes, whole⟩ := @onDataRead_reached lowerBound _ _ _ _
        (Nat.sub_eq_zero_of_le kept.reads) read
      rw [List.append_nil]
      exact kept.takes (kept.flag.resolve_right fun unread => some unread.2) reads takes whole
  | @readError ec =>
      rw [List.append_nil]
      refine ⟨[], matched, rfl, ?_⟩
      rw [List.append_nil]
      exact kept.fails ec rfl (Nat.sub_eq_zero_of_le kept.reads)
  | written =>
      obtain ⟨client, reads, _⟩ := initWrite_client
        { history.state with writes := history.state.writes - 1, txRunning := false }
      rw [List.append_nil]
      exact same client (Nat.le_of_eq reads)
  | @writeError ec some => exact absurd (succeeds ec rfl) some
  | disconnected =>
      rw [List.append_nil]
      exact kept.reacts (.cleanup history.state.connectionErrorCode) rfl (by rintro ⟨⟩) trivial
        rfl rfl

/-- **Refinement.** Every session whose writes succeed is a run of its client, over some
events that bring complete frames only: it has sent the same, and its client is the same but
for the flag of the disconnection, which a failed read sets. -/
theorem session_refines_client (lowerBound : LowerBound) (start : Session) (events : List Event)
    (last : Machine.History Session Tx) (opened : create.coInit = .ok start)
    (writes : (machine lowerBound).Along WritesSucceed ⟨start, []⟩ events)
    (ran : (machine lowerBound).run ⟨start, []⟩ events = .ok last) :
    ∃ seen matched, (Client.machine lowerBound).run Client.opening seen = .ok matched ∧
      (∀ event ∈ seen, event.Whole) ∧ matched.emitted = last.emitted ∧
      last.state.client = matched.state.flagged last.state.client.startDisconnect := by
  obtain ⟨client, synchronises, same⟩ := Outcome.bind_eq_ok.mp opened
  cases same
  have first : (Client.machine lowerBound).run Client.opening [.syncSettings true] =
      .ok ⟨client, []⟩ := by
    refine Machine.Takes.step (Client.step_of_react (by rintro ⟨⟩) ?_) []
    exact congrArg (fun result => Except.ok (Client.called _ result)) synchronises
  obtain ⟨seen, matched, reached, kept⟩ := Machine.run_simulated
    (fun _ _ _ _ _ kept succeeds taken => matches_step kept succeeds taken) first
    ⟨rfl, by rfl, .inl (by rfl), by rfl, List.forall_mem_singleton.mpr trivial⟩ writes ran
  exact ⟨seen, matched, reached, kept.whole, kept.emitted, kept.client⟩

/-- A session whose server closes the connection. -/
theorem session_refines_client_closed :
    ∃ start last, create.coInit = .ok start ∧
      (machine .linear).run ⟨start, []⟩ serverCloses = .ok last ∧ last.emitted ≠ [] ∧
      ∃ seen matched, (Client.machine .linear).run Client.opening seen = .ok matched ∧
        (∀ event ∈ seen, event.Whole) ∧ matched.emitted = last.emitted ∧
        last.state.client = matched.state.flagged last.state.client.startDisconnect := by
  have passes : (runNew serverCloses).toOption.any (fun (start, last) => decide (
      (machine .linear).Along WritesSucceed ⟨start, []⟩ serverCloses ∧
      last.emitted ≠ [])) = true := by
    decide +kernel
  obtain ⟨⟨start, last⟩, both, checks⟩ := Outcome.exists_ok_of_any passes
  obtain ⟨opened, ran⟩ := runNew_ok both
  obtain ⟨writes, some⟩ := of_decide_eq_true checks
  exact ⟨start, last, opened, ran, some,
    session_refines_client .linear start serverCloses last opened writes ran⟩

end Session

end H2pp.Http2

import H2pp.Lib.Outcome
import Mathlib.Algebra.GroupWithZero.Nat

/-! # Runs of a machine

A machine takes steps on events; a step may fail, and emits outputs. The history of a
run is its state together with all outputs so far. A condition that is met at every
step of a run carries an invariant along, and two conditions that agree where the
invariant holds are met along the same runs.
-/

namespace H2pp

/-- A machine with outputs, whose steps may fail. -/
structure Machine (State Event Output Error : Type) where
  step : State → Event → Except Error (State × List Output)

namespace Machine

variable {State Event Output Error : Type}

/-- A state and what has been emitted on the way to it. -/
structure History (State Output : Type) where
  state : State
  emitted : List Output

variable (machine : Machine State Event Output Error)

/-- A step that records its outputs. -/
def advance (history : History State Output) (event : Event) :
    Except Error (History State Output) := do
  let (state, out) ← machine.step history.state event
  .ok ⟨state, history.emitted ++ out⟩

/-- A run over a list of events. -/
def run : History State Output → List Event → Except Error (History State Output)
  | history, [] => .ok history
  | history, event :: events => do
      let next ← machine.advance history event
      run next events

/-- `condition` holds before every step of the run, up to its end or to a step that
fails. -/
def Along (condition : History State Output → Event → Prop) :
    History State Output → List Event → Prop
  | _, [] => True
  | history, event :: events =>
      condition history event ∧
        match machine.advance history event with
        | .ok next => Along condition next events
        | .error _ => True

instance decidableAlong (condition : History State Output → Event → Prop)
    [∀ history event, Decidable (condition history event)] :
    ∀ history events, Decidable (machine.Along condition history events)
  | _, [] => isTrue trivial
  | history, event :: events =>
      have : Decidable (match machine.advance history event with
          | .ok next => machine.Along condition next events
          | .error _ => True) :=
        match machine.advance history event with
        | .ok next => decidableAlong condition next events
        | .error _ => isTrue trivial
      inferInstanceAs (Decidable (_ ∧ _))

variable {machine} {condition other : History State Output → Event → Prop}
  {invariant : History State Output → Prop}

/-- A step that is taken is one of the machine. -/
theorem advance_eq_ok {history next : History State Output} {event : Event}
    (taken : machine.advance history event = .ok next) :
    ∃ state out, machine.step history.state event = .ok (state, out) ∧
      next = ⟨state, history.emitted ++ out⟩ := by
  obtain ⟨⟨state, out⟩, stepped, same⟩ := Outcome.bind_eq_ok.mp taken
  cases same
  exact ⟨state, out, stepped, rfl⟩

/-- An invariant of the state and of the events that are still to come, kept by every
step that meets the condition, holds at the end of every run that meets it throughout. -/
theorem run_remaining {invariant : History State Output → List Event → Prop}
    (keeps : ∀ history event events next, invariant history (event :: events) →
      condition history event → machine.advance history event = .ok next → invariant next events)
    {history last : History State Output} {events : List Event} (start : invariant history events)
    (along : machine.Along condition history events)
    (ran : machine.run history events = .ok last) : invariant last [] := by
  induction events generalizing history with
  | nil =>
      cases ran
      exact start
  | cons event events ih =>
      obtain ⟨met, later⟩ := along
      obtain ⟨next, taken, rest⟩ := Outcome.bind_eq_ok.mp ran
      rw [taken] at later
      exact ih (keeps history event events next start met taken) later rest

/-- **Invariants along a run.** An invariant kept by every step that meets the
condition holds at the end of every run that meets it throughout. -/
theorem run_invariant
    (keeps : ∀ history event next, invariant history → condition history event →
      machine.advance history event = .ok next → invariant next)
    {history last : History State Output} {events : List Event} (start : invariant history)
    (along : machine.Along condition history events)
    (ran : machine.run history events = .ok last) : invariant last :=
  @run_remaining _ _ _ _ machine condition (fun history _ => invariant history)
    (fun history event _ next => keeps history event next) _ _ _ start along ran

/-- An invariant that every step keeps holds at the end of every run. -/
theorem run_kept
    (keeps : ∀ history event next, invariant history →
      machine.advance history event = .ok next → invariant next)
    {history last : History State Output} {events : List Event} (start : invariant history)
    (ran : machine.run history events = .ok last) : invariant last := by
  induction events generalizing history with
  | nil =>
      cases ran
      exact start
  | cons event events ih =>
      obtain ⟨next, taken, rest⟩ := Outcome.bind_eq_ok.mp ran
      exact ih (keeps history event next start taken) rest

/-- An invariant of the state and of an amount that every event adds to. -/
theorem run_measured {weight : Event → Nat} {invariant : Nat → History State Output → Prop}
    (keeps : ∀ amount history event next, invariant amount history → condition history event →
      machine.advance history event = .ok next → invariant (amount + weight event) next)
    {history last : History State Output} {events : List Event} {amount : Nat}
    (start : invariant amount history) (along : machine.Along condition history events)
    (ran : machine.run history events = .ok last) :
    invariant (amount + (events.map weight).sum) last := by
  induction events generalizing history amount with
  | nil =>
      cases ran
      exact start
  | cons event events ih =>
      obtain ⟨met, later⟩ := along
      obtain ⟨next, taken, rest⟩ := Outcome.bind_eq_ok.mp ran
      rw [taken] at later
      rw [List.map_cons, List.sum_cons, ← Nat.add_assoc]
      exact ih (keeps amount history event next start met taken) later rest

/-- A condition on the events alone. -/
theorem along_of_mem {allowed : Event → Prop} {events : List Event}
    (met : ∀ event ∈ events, allowed event) (history : History State Output) :
    machine.Along (fun _ event => allowed event) history events := by
  induction events generalizing history with
  | nil => trivial
  | cons event events ih =>
      refine ⟨met event List.mem_cons_self, ?_⟩
      split
      · exact ih (fun later member => met later (List.mem_cons_of_mem _ member)) _
      · trivial

/-- A condition that is met along a run under a premise. -/
theorem along_of_imp {premise : Prop} {history : History State Output} {events : List Event}
    (along : premise → machine.Along condition history events) :
    machine.Along (fun history event => premise → condition history event) history events := by
  induction events generalizing history with
  | nil => trivial
  | cons event events ih =>
      refine ⟨fun holds => (along holds).1, ?_⟩
      cases taken : machine.advance history event with
      | error failure => trivial
      | ok next =>
          refine ih fun holds => ?_
          have later := (along holds).2
          rw [taken] at later
          exact later

/-- Two conditions that are met along a run are met together. -/
theorem Along.and {history : History State Output} {events : List Event}
    (first : machine.Along condition history events) (second : machine.Along other history events) :
    machine.Along (fun history event => condition history event ∧ other history event)
      history events := by
  induction events generalizing history with
  | nil => trivial
  | cons event events ih =>
      refine ⟨⟨first.1, second.1⟩, ?_⟩
      obtain ⟨_, first⟩ := first
      obtain ⟨_, second⟩ := second
      cases taken : machine.advance history event with
      | error failure => trivial
      | ok next =>
          rw [taken] at first second
          exact ih first second

/-- A run goes on from where a first part of it has led. -/
theorem run_append {history middle : History State Output} {before : List Event}
    (ran : machine.run history before = .ok middle) (after : List Event) :
    machine.run history (before ++ after) = machine.run middle after := by
  induction before generalizing history with
  | nil =>
      cases ran
      rfl
  | cons event before ih =>
      obtain ⟨next, taken, rest⟩ := Outcome.bind_eq_ok.mp ran
      rw [List.cons_append, run, taken, Outcome.ok_bind, ih rest]

/-- A run that comes to its end goes through the state after a first part of it. -/
theorem run_append_ok {history last : History State Output} {before after : List Event}
    (ran : machine.run history (before ++ after) = .ok last) :
    ∃ middle, machine.run history before = .ok middle ∧ machine.run middle after = .ok last := by
  induction before generalizing history with
  | nil => exact ⟨history, rfl, ran⟩
  | cons event before ih =>
      obtain ⟨next, taken, rest⟩ := Outcome.bind_eq_ok.mp ran
      obtain ⟨middle, first, second⟩ := ih rest
      exact ⟨middle, Outcome.bind_eq_ok.mpr ⟨next, taken, first⟩, second⟩

/-- The condition is met along the rest of a run. -/
theorem along_append {history middle : History State Output} {before after : List Event}
    (along : machine.Along condition history (before ++ after))
    (ran : machine.run history before = .ok middle) :
    machine.Along condition history before ∧ machine.Along condition middle after := by
  induction before generalizing history with
  | nil =>
      cases ran
      exact ⟨trivial, along⟩
  | cons event before ih =>
      obtain ⟨met, later⟩ := along
      obtain ⟨next, taken, rest⟩ := Outcome.bind_eq_ok.mp ran
      rw [taken] at later
      obtain ⟨first, second⟩ := ih later rest
      refine ⟨⟨met, ?_⟩, second⟩
      rw [taken]
      exact first

/-- Conditions that are met along two runs, one after the other, are met along both. -/
theorem Along.append {history middle : History State Output} {before after : List Event}
    (first : machine.Along condition history before)
    (ran : machine.run history before = .ok middle)
    (second : machine.Along condition middle after) :
    machine.Along condition history (before ++ after) := by
  induction before generalizing history with
  | nil =>
      cases ran
      exact second
  | cons event before ih =>
      obtain ⟨met, later⟩ := first
      obtain ⟨next, taken, rest⟩ := Outcome.bind_eq_ok.mp ran
      refine ⟨met, ?_⟩
      rw [taken] at later ⊢
      exact ih later rest

/-- A condition that implies another one where the invariant holds. -/
theorem Along.imp
    (implies : ∀ history event, invariant history → condition history event → other history event)
    (keeps : ∀ history event next, invariant history → condition history event →
      machine.advance history event = .ok next → invariant next)
    {history : History State Output} (start : invariant history) {events : List Event}
    (along : machine.Along condition history events) : machine.Along other history events := by
  induction events generalizing history with
  | nil => trivial
  | cons event events ih =>
      obtain ⟨met, later⟩ := along
      refine ⟨implies history event start met, ?_⟩
      cases taken : machine.advance history event with
      | error failure => trivial
      | ok next =>
          rw [taken] at later
          exact ih (keeps history event next start met taken) later

/-- Two conditions that agree where the invariant holds are met along the same runs. -/
theorem along_iff
    (same : ∀ history event, invariant history → (condition history event ↔ other history event))
    (keeps : ∀ history event next, invariant history → other history event →
      machine.advance history event = .ok next → invariant next)
    {history : History State Output} (start : invariant history) (events : List Event) :
    machine.Along condition history events ↔ machine.Along other history events :=
  ⟨Along.imp (fun history event holds => (same history event holds).mp)
    (fun history event next holds met => keeps history event next holds
      ((same history event holds).mp met)) start,
    Along.imp (fun history event holds => (same history event holds).mpr) keeps start⟩

/-- Along a run that comes to its end, every step is taken. -/
theorem along_taken {history last : History State Output} {events : List Event}
    (ran : machine.run history events = .ok last) :
    machine.Along (fun history event => ∃ next, machine.advance history event = .ok next)
      history events := by
  induction events generalizing history with
  | nil => trivial
  | cons event events ih =>
      obtain ⟨next, taken, rest⟩ := Outcome.bind_eq_ok.mp ran
      refine ⟨⟨next, taken⟩, ?_⟩
      rw [taken]
      exact ih rest

/-- A run along which every step makes a number smaller has no more steps than it. -/
theorem length_le_of_falls {measure : State → Nat}
    (falls : ∀ history event, invariant history → condition history event →
      ∃ next, machine.advance history event = .ok next ∧ invariant next ∧
        measure next.state < measure history.state)
    {history : History State Output} (start : invariant history) {events : List Event}
    (along : machine.Along condition history events) : events.length ≤ measure history.state := by
  induction events generalizing history with
  | nil => exact Nat.zero_le _
  | cons event events ih =>
      obtain ⟨met, later⟩ := along
      obtain ⟨next, taken, kept, less⟩ := falls history event start met
      rw [taken] at later
      exact Nat.lt_of_le_of_lt (ih kept later) less

/-- The machine with an observer, who computes something from every state and event. -/
def observed {Seen : Type} (machine : Machine State Event Output Error)
    (observe : State → Event → Seen → Seen) : Machine (State × Seen) Event Output Error where
  step state event := do
    let (next, out) ← machine.step state.1 event
    .ok ((next, observe state.1 event state.2), out)

/-- An observed step is a step, with the observation of it. -/
theorem observed_advance {Seen : Type} {observe : State → Event → Seen → Seen}
    {history next : History (State × Seen) Output} {event : Event}
    (taken : (machine.observed observe).advance history event = .ok next) :
    ∃ state out, machine.step history.state.1 event = .ok (state, out) ∧
      next = ⟨(state, observe history.state.1 event history.state.2), history.emitted ++ out⟩ := by
  obtain ⟨_, _, observed, rfl⟩ := advance_eq_ok taken
  obtain ⟨⟨state, out⟩, stepped, same⟩ := Outcome.bind_eq_ok.mp observed
  cases same
  exact ⟨_, _, stepped, rfl⟩

/-- Observing does not change what the machine does. -/
theorem observed_run {Seen : Type} {observe : State → Event → Seen → Seen}
    {state : State} {seen : Seen} {emitted : List Output} {events : List Event}
    {last : History State Output} (ran : machine.run ⟨state, emitted⟩ events = .ok last) :
    ∃ after, (machine.observed observe).run ⟨(state, seen), emitted⟩ events =
      .ok ⟨(last.state, after), last.emitted⟩ := by
  induction events generalizing state seen emitted with
  | nil =>
      cases ran
      exact ⟨seen, rfl⟩
  | cons event events ih =>
      obtain ⟨next, taken, rest⟩ := Outcome.bind_eq_ok.mp ran
      obtain ⟨after, out, stepped, rfl⟩ := advance_eq_ok taken
      obtain ⟨final, whole⟩ := @ih _ (observe state event seen) _ rest
      refine ⟨final, Outcome.bind_eq_ok.mpr ⟨_, ?_, whole⟩⟩
      exact Outcome.bind_eq_ok.mpr ⟨_, Outcome.bind_eq_ok.mpr ⟨_, stepped, rfl⟩, rfl⟩

/-- Without the observer the run is the same. -/
theorem run_of_observed {Seen : Type} {observe : State → Event → Seen → Seen}
    {history last : History (State × Seen) Output} {events : List Event}
    (ran : (machine.observed observe).run history events = .ok last) :
    machine.run ⟨history.state.1, history.emitted⟩ events = .ok ⟨last.state.1, last.emitted⟩ := by
  induction events generalizing history with
  | nil =>
      cases ran
      rfl
  | cons event events ih =>
      obtain ⟨next, taken, rest⟩ := Outcome.bind_eq_ok.mp ran
      obtain ⟨state, out, stepped, rfl⟩ := observed_advance taken
      exact Outcome.bind_eq_ok.mpr ⟨_, Outcome.bind_eq_ok.mpr ⟨_, stepped, rfl⟩, ih rest⟩

/-! ## Simulation -/

/-- The machine gets from a state to another one on some events, and emits `out`. -/
def Takes (machine : Machine State Event Output Error) (state : State) (events : List Event)
    (next : State) (out : List Output) : Prop :=
  ∀ earlier, machine.run ⟨state, earlier⟩ events = .ok ⟨next, earlier ++ out⟩

/-- No event, no step. -/
theorem Takes.refl (machine : Machine State Event Output Error) (state : State) :
    machine.Takes state [] state [] :=
  fun earlier => by rw [List.append_nil]; rfl

/-- One event, one step. -/
theorem Takes.step {state next : State} {event : Event} {out : List Output}
    (stepped : machine.step state event = .ok (next, out)) :
    machine.Takes state [event] next out := by
  intro earlier
  rw [run, advance, stepped, Outcome.ok_bind, Outcome.ok_bind, run]

/-- One run after another. -/
theorem Takes.append {state middle next : State} {before after : List Event}
    {first second : List Output} (early : machine.Takes state before middle first)
    (late : machine.Takes middle after next second) :
    machine.Takes state (before ++ after) next (first ++ second) := by
  intro earlier
  rw [run_append (early earlier), late, List.append_assoc]

/-- **Simulation.** When every step of a machine is matched by another machine, on some
events of its own, so is every run: the other machine sees the events of all steps. -/
theorem run_simulated {Other OtherEvent OtherOutput OtherError : Type}
    {other : Machine Other OtherEvent OtherOutput OtherError}
    {related : History State Output → List OtherEvent → History Other OtherOutput → Prop}
    (follows : ∀ history event next seen matched, related history seen matched →
      condition history event → machine.advance history event = .ok next →
      ∃ more after, other.run matched more = .ok after ∧ related next (seen ++ more) after)
    {history last : History State Output} {events : List Event}
    {first matched : History Other OtherOutput} {seen : List OtherEvent}
    (reached : other.run first seen = .ok matched) (start : related history seen matched)
    (along : machine.Along condition history events)
    (ran : machine.run history events = .ok last) :
    ∃ all after, other.run first all = .ok after ∧ related last all after := by
  induction events generalizing history matched seen with
  | nil =>
      cases ran
      exact ⟨seen, matched, reached, start⟩
  | cons event events ih =>
      obtain ⟨met, later⟩ := along
      obtain ⟨next, taken, rest⟩ := Outcome.bind_eq_ok.mp ran
      rw [taken] at later
      obtain ⟨more, after, moved, kept⟩ :=
        follows history event next seen matched start met taken
      exact ih ((run_append reached more).trans moved) kept later rest

end Machine

/-- A property of the prefixes of a list that each further element keeps exactly if its
condition is met holds of all prefixes exactly if all conditions are met. -/
theorem prefixes_iff {Change : Type} (holds : List Change → Prop) (changes : List Change)
    {met : ∀ position, position < changes.length → Prop} (start : holds [])
    (step : ∀ position (inside : position < changes.length), holds (changes.take position) →
      (holds (changes.take position ++ [changes[position]]) ↔ met position inside)) :
    (∀ count, holds (changes.take count)) ↔
      ∀ position (inside : position < changes.length), met position inside := by
  constructor
  · intro all position inside
    rw [← step position inside (all position), ← List.take_succ_eq_append_getElem inside]
    exact all (position + 1)
  · intro conditions count
    induction count with
    | zero => exact start
    | succ position ih =>
        by_cases inside : position < changes.length
        · rw [List.take_succ_eq_append_getElem inside]
          exact (step position inside ih).mpr (conditions position inside)
        · rw [List.take_of_length_le (Nat.not_lt.mp inside)] at ih
          rw [List.take_of_length_le (Nat.le_succ_of_le (Nat.not_lt.mp inside))]
          exact ih

end H2pp

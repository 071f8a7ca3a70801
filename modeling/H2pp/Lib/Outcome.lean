import Mathlib.Data.List.Basic

/-! # Computations that can fail

How `Except` computations compose: what a bind does to a value and to an error,
and what a successful bind says about its two parts.
-/

namespace H2pp.Outcome

variable {Error Value Final : Type}

/-- After a value the computation goes on. -/
@[simp] theorem ok_bind (value : Value) (next : Value → Except Error Final) :
    (Except.ok value >>= next) = next value := rfl

/-- After an error it does not. -/
@[simp] theorem error_bind (error : Error) (next : Value → Except Error Final) :
    ((Except.error error : Except Error Value) >>= next) = .error error := rfl

/-- A sequence succeeds exactly when both parts do. -/
theorem bind_eq_ok {first : Except Error Value} {next : Value → Except Error Final}
    {final : Final} :
    (first >>= next) = .ok final ↔ ∃ value, first = .ok value ∧ next value = .ok final := by
  cases first with
  | error error =>
      constructor
      · intro failed
        cases failed
      · rintro ⟨_, failed, _⟩
        cases failed
  | ok value =>
      constructor
      · intro done
        exact ⟨value, rfl, done⟩
      · rintro ⟨_, same, done⟩
        cases same
        exact done

/-- A sequence fails where one of its parts does. -/
theorem bind_eq_error {first : Except Error Value} {next : Value → Except Error Final}
    {error : Error} :
    (first >>= next) = .error error ↔
      first = .error error ∨ ∃ value, first = .ok value ∧ next value = .error error := by
  cases first with
  | error other => simp only [error_bind, Except.error.injEq, reduceCtorEq, false_and,
      exists_false, or_false]
  | ok value => simp only [ok_bind, reduceCtorEq, false_or, Except.ok.injEq, exists_eq_left']

/-- Whether a computation ends in an error is decidable, whatever its values are. -/
instance decidableNeError [DecidableEq Error] (error : Error) :
    ∀ outcome : Except Error Value, Decidable (outcome ≠ .error error)
  | .ok _ => isTrue nofun
  | .error other => decidable_of_iff (other ≠ error)
      (not_congr ⟨congrArg Except.error, Except.error.inj⟩)

/-- A sequence does not end in an error that none of its parts ends in. -/
theorem bind_ne_error {first : Except Error Value} {next : Value → Except Error Final}
    {error : Error} (before : first ≠ .error error) (after : ∀ value, next value ≠ .error error) :
    (first >>= next) ≠ .error error := by
  cases first with
  | error other =>
      intro same
      cases same
      exact before rfl
  | ok value => exact after value

/-- A value that is only put into another form. -/
theorem bind_ok_ne_error {first : Except Error Value} {form : Value → Final} {error : Error} :
    (first >>= fun value => Except.ok (form value)) ≠ .error error ↔ first ≠ .error error := by
  cases first with
  | error other =>
      rw [error_bind, ne_eq, ne_eq, Except.error.injEq, Except.error.injEq]
  | ok value => exact ⟨fun _ => nofun, fun _ => nofun⟩

/-- A test that passes on the outcome passes on a value. -/
theorem exists_ok_of_any {outcome : Except Error Value} {test : Value → Bool}
    (passes : outcome.toOption.any test = true) :
    ∃ value, outcome = .ok value ∧ test value = true := by
  cases outcome with
  | error error => cases passes
  | ok value => exact ⟨value, rfl, passes⟩

/-- The value of an outcome, if it has one. -/
theorem mem_toOption {outcome : Except Error Value} {value : Value} :
    value ∈ outcome.toOption ↔ outcome = .ok value := by
  cases outcome with
  | error error => exact ⟨nofun, nofun⟩
  | ok other =>
      constructor
      · exact fun same => congrArg _ (Option.some.inj same)
      · intro same
        cases same
        rfl

/-- A choice fails only if the branch that is taken fails. -/
theorem ite_ne_error {condition : Prop} [Decidable condition] {yes no : Except Error Value}
    {error : Error} (first : yes ≠ .error error) (second : no ≠ .error error) :
    (if condition then yes else no) ≠ .error error := by
  split
  · exact first
  · exact second

/-- A value is no error. -/
theorem ok_ne_error (value : Value) (error : Error) :
    (Except.ok value : Except Error Value) ≠ .error error := by
  intro same
  cases same

/-- An error is no other error. -/
theorem error_ne_error {first second : Error} (different : first ≠ second) :
    (Except.error first : Except Error Value) ≠ .error second :=
  fun same => different (Except.error.inj same)

/-- A computation that ends in no error has a value. -/
theorem exists_ok {outcome : Except Error Value} (succeeds : ∀ error, outcome ≠ .error error) :
    ∃ value, outcome = .ok value := by
  cases outcome with
  | error error => exact absurd rfl (succeeds error)
  | ok value => exact ⟨value, rfl⟩

/-- How a computation ends: with a value that meets one condition, or with an error that
meets another. -/
def Ends (outcome : Except Error Value) (good : Value → Prop) (bad : Error → Prop) : Prop :=
  match outcome with
  | .ok value => good value
  | .error error => bad error

/-- A sequence ends as its second part does from the values of the first. -/
theorem Ends.bind {first : Except Error Value} {next : Value → Except Error Final}
    {between : Value → Prop} {good : Final → Prop} {bad : Error → Prop}
    (before : Ends first between bad)
    (after : ∀ value, between value → Ends (next value) good bad) :
    Ends (first >>= next) good bad := by
  cases first with
  | error error => exact before
  | ok value => exact after value before

/-- What is said of errors can be weakened. -/
theorem Ends.imp_error {outcome : Except Error Value} {good : Value → Prop}
    {bad worse : Error → Prop} (ends : Ends outcome good bad)
    (implies : ∀ error, bad error → worse error) : Ends outcome good worse := by
  cases outcome with
  | error error => exact implies error ends
  | ok value => exact ends

section Runs

variable {State Model Event : Type} {step : State → Event → Except Error State}

/-- Steps that succeed and keep an invariant make a run that does. -/
theorem foldlM_total {invariant : State → Prop}
    (steps : ∀ state event, invariant state →
      ∃ next, step state event = .ok next ∧ invariant next)
    {state : State} (start : invariant state) (events : List Event) :
    ∃ last, events.foldlM step state = .ok last ∧ invariant last := by
  induction events generalizing state with
  | nil => exact ⟨state, rfl, start⟩
  | cons event events ih =>
      obtain ⟨next, stepped, after⟩ := steps state event start
      obtain ⟨last, ran, holds⟩ := ih after
      refine ⟨last, ?_, holds⟩
      rw [List.foldlM_cons, stepped, ok_bind, ran]

/-- Steps that succeed as those of a model do, where the model meets a condition, make a
run that does. -/
theorem foldlM_refines {modelStep : Model → Event → Model} {condition : Model → Event → Prop}
    {relation : State → Model → Prop}
    (steps : ∀ state model event, relation state model → condition model event →
      ∃ next, step state event = .ok next ∧ relation next (modelStep model event))
    {state : State} {model : Model} (start : relation state model) {events : List Event}
    (met : ∀ position (inside : position < events.length),
      condition ((events.take position).foldl modelStep model) events[position]) :
    ∃ last, events.foldlM step state = .ok last ∧ relation last (events.foldl modelStep model) := by
  induction events generalizing state model with
  | nil => exact ⟨state, rfl, start⟩
  | cons event events ih =>
      obtain ⟨next, stepped, after⟩ := steps state model event start (met 0 (Nat.succ_pos _))
      obtain ⟨last, ran, holds⟩ := ih after fun position inside =>
        met (position + 1) (Nat.succ_lt_succ inside)
      refine ⟨last, ?_, holds⟩
      rw [List.foldlM_cons, stepped, ok_bind, ran]

/-- Steps that end as those of a model do, or in an error of their own event, make a run
that does. -/
theorem Ends.foldlM {modelStep : Model → Event → Model} (relation : State → Model → Prop)
    {bad : Event → Error → Prop}
    (steps : ∀ state model event, relation state model →
      Ends (step state event) (fun next => relation next (modelStep model event)) (bad event))
    {state : State} {model : Model} (start : relation state model) (events : List Event) :
    Ends (events.foldlM step state) (fun last => relation last (events.foldl modelStep model))
      (fun error => ∃ event ∈ events, bad event error) := by
  induction events generalizing state model with
  | nil => exact start
  | cons event events ih =>
      rw [List.foldlM_cons, List.foldl_cons]
      refine ((steps state model event start).imp_error ?_).bind fun next after =>
        (ih after).imp_error ?_
      · exact fun error failed => ⟨event, List.mem_cons_self, failed⟩
      · rintro error ⟨later, member, failed⟩
        exact ⟨later, List.mem_cons_of_mem _ member, failed⟩

end Runs

end H2pp.Outcome

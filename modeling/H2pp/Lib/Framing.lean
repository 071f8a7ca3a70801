import Mathlib.Data.List.Basic

/-! # Cutting a stream into items

A format decides from the symbols received so far whether an item is complete,
whether the input has to be rejected, or whether more input is needed; it may look
at a state that the items cut so far have left. When the first two answers do not
change as more input arrives, a stream can be cut piece by piece: cutting what is
there and keeping the rest gives the same items as cutting the whole stream.
-/

namespace H2pp.Framing

/-- What a format says about the input so far. -/
inductive Verdict (Item : Type)
  | wait
  | reject
  | take (item : Item) (count : Nat)
  deriving DecidableEq, Repr

/-- A format with states, over symbols and items. -/
structure Format (State Symbol Item : Type) where
  classify : State → List Symbol → Verdict Item
  next : State → Item → State
  bounds : ∀ {state input item count}, classify state input = .take item count →
    0 < count ∧ count ≤ input.length
  take_append : ∀ {state input item count}, classify state input = .take item count →
    ∀ more, classify state (input ++ more) = .take item count
  reject_append : ∀ {state input}, classify state input = .reject →
    ∀ more, classify state (input ++ more) = .reject

/-- The items cut off, the state they leave, and the input that remains. -/
structure Cut (State Symbol Item : Type) where
  items : List Item
  state : State
  rest : List Symbol

namespace Format

variable {State Symbol Item : Type} (format : Format State Symbol Item)

/-- Cut off items as long as there are any; every item takes at least one symbol. -/
def cutLoop : Nat → State → List Symbol → Cut State Symbol Item
  | 0, state, input => ⟨[], state, input⟩
  | fuel + 1, state, input =>
      match format.classify state input with
      | .take item count =>
          let later := cutLoop fuel (format.next state item) (input.drop count)
          ⟨item :: later.items, later.state, later.rest⟩
      | _ => ⟨[], state, input⟩

/-- Cut off all items of the input. -/
def cut (state : State) (input : List Symbol) : Cut State Symbol Item :=
  format.cutLoop input.length state input

variable {format} {state : State} {input : List Symbol}

/-- More fuel than there are bytes changes nothing. -/
theorem cutLoop_eq (fuel : Nat) (enough : input.length ≤ fuel) :
    format.cutLoop fuel state input = format.cut state input := by
  have more : ∀ (fuel : Nat) (state : State) (input : List Symbol), input.length ≤ fuel →
      format.cutLoop (fuel + 1) state input = format.cutLoop fuel state input := by
    intro fuel
    induction fuel with
    | zero =>
        intro state input short
        rw [cutLoop, cutLoop]
        cases verdict : format.classify state input with
        | wait => rfl
        | reject => rfl
        | take item count =>
            have bounds := format.bounds verdict
            omega
    | succ fuel ih =>
        intro state input short
        rw [cutLoop, cutLoop]
        cases verdict : format.classify state input with
        | wait => rfl
        | reject => rfl
        | take item count =>
            have bounds := format.bounds verdict
            simp only
            rw [ih _ _ (by rw [List.length_drop]; omega)]
  induction fuel with
  | zero => rw [cut, Nat.le_zero.mp enough]
  | succ fuel ih =>
      by_cases exact : input.length = fuel + 1
      · rw [cut, exact]
      · rw [more fuel state input (by omega), ih (by omega)]

/-- Nothing is cut off unless an item is complete. -/
theorem cut_stop (stop : ∀ item count, format.classify state input ≠ .take item count) :
    format.cut state input = ⟨[], state, input⟩ := by
  rw [← cutLoop_eq (input.length + 1) (Nat.le_succ _), cutLoop]
  cases verdict : format.classify state input with
  | wait => rfl
  | reject => rfl
  | take item count => exact absurd verdict (stop item count)

/-- A complete item is cut off first. -/
theorem cut_take {item : Item} {count : Nat}
    (complete : format.classify state input = .take item count) :
    format.cut state input =
      ⟨item :: (format.cut (format.next state item) (input.drop count)).items,
        (format.cut (format.next state item) (input.drop count)).state,
        (format.cut (format.next state item) (input.drop count)).rest⟩ := by
  have bounds := format.bounds complete
  rw [← cutLoop_eq (input.length + 1) (Nat.le_succ _), cutLoop, complete]
  simp only
  rw [cutLoop_eq input.length (by rw [List.length_drop]; omega)]

/-- Induction along the items cut off. -/
theorem cut_induction {motive : State → List Symbol → Cut State Symbol Item → Prop}
    (stop : ∀ state input, (∀ item count, format.classify state input ≠ .take item count) →
      motive state input ⟨[], state, input⟩)
    (take : ∀ state input item count later, format.classify state input = .take item count →
      motive (format.next state item) (input.drop count) later →
      motive state input ⟨item :: later.items, later.state, later.rest⟩)
    (state : State) (input : List Symbol) : motive state input (format.cut state input) := by
  induction size : input.length using Nat.strongRecOn generalizing state input with
  | ind length ih =>
      cases verdict : format.classify state input with
      | take item count =>
          have bounds := format.bounds verdict
          rw [cut_take verdict]
          refine take state input item count _ verdict (ih _ ?_ _ _ rfl)
          rw [List.length_drop]
          omega
      | _ =>
          have stops : ∀ item count, format.classify state input ≠ .take item count := by
            rw [verdict]
            exact fun _ _ same => (by cases same)
          rw [cut_stop stops]
          exact stop state input stops

/-- **Cutting piece by piece.** The items of a longer input are those of its first
part, and then those of the remaining input together with the second part. -/
theorem cut_append (state : State) (first second : List Symbol) :
    format.cut state (first ++ second) =
      ⟨(format.cut state first).items ++
          (format.cut (format.cut state first).state
            ((format.cut state first).rest ++ second)).items,
        (format.cut (format.cut state first).state
          ((format.cut state first).rest ++ second)).state,
        (format.cut (format.cut state first).state
          ((format.cut state first).rest ++ second)).rest⟩ := by
  refine cut_induction (motive := fun state first cut => format.cut state (first ++ second) =
    ⟨cut.items ++ (format.cut cut.state (cut.rest ++ second)).items,
      (format.cut cut.state (cut.rest ++ second)).state,
      (format.cut cut.state (cut.rest ++ second)).rest⟩) ?_ ?_ state first
  · intro state first _
    rfl
  · intro state first item count later verdict same
    have bounds := format.bounds verdict
    rw [cut_take (format.take_append verdict second), List.drop_append_of_le_length bounds.2, same]
    rfl

/-- **Concatenated items.** Items that are written one after another are cut off again, and
nothing is left. -/
theorem cut_flatMap {write : Item → List Symbol} {items : List Item}
    (reads : ∀ state, ∀ item ∈ items,
      format.classify state (write item) = .take item (write item).length) (state : State) :
    format.cut state (items.flatMap write) = ⟨items, items.foldl format.next state, []⟩ := by
  induction items generalizing state with
  | nil => rfl
  | cons item items ih =>
      have first := format.take_append (reads state item List.mem_cons_self) (items.flatMap write)
      rw [List.flatMap_cons, cut_take first, List.drop_left,
        ih (fun state item later => reads state item (List.mem_cons_of_mem _ later))]
      rfl

end Format

end H2pp.Framing

import Mathlib.Data.List.Pairwise

/-! # Values at addresses

A queue of values that are pointed to. A new value is put in front, at an address that
was never used before, so the address of an erased value is never that of another one.
Pushing and erasing leave the addresses of the other values valid.
-/

namespace H2pp

/-- A value and its address. -/
structure Cell (Value : Type) where
  address : Nat
  value : Value
  deriving DecidableEq, Repr

/-- The live cells, newest first, and the next address. -/
structure Arena (Value : Type) where
  cells : List (Cell Value)
  fresh : Nat
  descending : cells.Pairwise fun newer older => older.address < newer.address
  bounded : ∀ cell ∈ cells, cell.address < fresh

namespace Arena

variable {Value : Type}

/-- No values. -/
def empty : Arena Value := ⟨[], 0, .nil, nofun⟩

/-- The values, newest first. -/
def values (arena : Arena Value) : List Value := arena.cells.map Cell.value

/-- The value at an address, if it is live. -/
def deref (arena : Arena Value) (pointer : Nat) : Option Value :=
  (arena.cells.find? fun cell => cell.address = pointer).map Cell.value

/-- Put a value in front; its address is `fresh`. -/
def pushFront (arena : Arena Value) (value : Value) : Arena Value where
  cells := ⟨arena.fresh, value⟩ :: arena.cells
  fresh := arena.fresh + 1
  descending := List.pairwise_cons.mpr ⟨arena.bounded, arena.descending⟩
  bounded := by
    intro cell member
    rcases List.mem_cons.mp member with rfl | old
    · exact Nat.lt_succ_self _
    · exact Nat.lt_succ_of_lt (arena.bounded cell old)

/-- Erase all values from a position on. -/
def keep (arena : Arena Value) (position : Nat) : Arena Value where
  cells := arena.cells.take position
  fresh := arena.fresh
  descending := arena.descending.sublist (List.take_sublist _ _)
  bounded := fun cell member => arena.bounded cell (List.mem_of_mem_take member)

/-- The new value stands in front. -/
@[simp] theorem values_pushFront (arena : Arena Value) (value : Value) :
    (arena.pushFront value).values = value :: arena.values := rfl

/-- The values in front of `position` stay. -/
@[simp] theorem values_keep (arena : Arena Value) (position : Nat) :
    (arena.keep position).values = arena.values.take position := by
  rw [values, keep, List.map_take, values]

/-- One value for each cell. -/
@[simp] theorem length_values (arena : Arena Value) :
    arena.values.length = arena.cells.length := List.length_map _

variable {arena : Arena Value} {pointer position : Nat} {value : Value}

/-- The address of a live cell leads to its value. -/
theorem deref_of_mem {cell : Cell Value} (member : cell ∈ arena.cells) :
    arena.deref cell.address = some cell.value := by
  have distinct := arena.descending
  rw [deref]
  generalize arena.cells = cells at member distinct
  induction cells with
  | nil => cases member
  | cons head cells ih =>
      obtain ⟨above, rest⟩ := List.pairwise_cons.mp distinct
      rcases List.mem_cons.mp member with rfl | later
      · rw [List.find?_cons_of_pos (by simp), Option.map_some]
      · have less := above cell later
        rw [List.find?_cons_of_neg (by simpa using Nat.ne_of_gt less)]
        exact ih later rest

/-- What is found at an address is the value of a live cell. -/
theorem exists_cell_of_deref (found : arena.deref pointer = some value) :
    ∃ cell ∈ arena.cells, cell.address = pointer ∧ cell.value = value := by
  obtain ⟨cell, search, same⟩ := Option.map_eq_some_iff.mp found
  exact ⟨cell, List.mem_of_find?_eq_some search, by simpa using List.find?_some search, same⟩

/-- A pointer refers to a live value. -/
def Refers (arena : Arena Value) (pointer : Nat) (value : Value) : Prop :=
  arena.deref pointer = some value

/-- The address of the new cell. -/
theorem deref_pushFront_fresh : (arena.pushFront value).deref arena.fresh = some value :=
  @deref_of_mem Value (arena.pushFront value) ⟨arena.fresh, value⟩ List.mem_cons_self

/-- Pushing a value does not move the others. -/
theorem deref_pushFront (found : arena.deref pointer = some value) (new : Value) :
    (arena.pushFront new).deref pointer = some value := by
  obtain ⟨cell, member, rfl, rfl⟩ := exists_cell_of_deref found
  exact @deref_of_mem Value (arena.pushFront new) cell (List.mem_cons_of_mem _ member)

/-- A value that is not among the erased ones stays where it is. -/
theorem deref_keep (found : arena.deref pointer = some value)
    (stays : value ∉ arena.values.drop position) :
    (arena.keep position).deref pointer = some value := by
  obtain ⟨cell, member, rfl, rfl⟩ := exists_cell_of_deref found
  rw [← List.take_append_drop position arena.cells] at member
  rcases List.mem_append.mp member with kept | erased
  · exact @deref_of_mem Value (arena.keep position) cell kept
  · rw [values, ← List.map_drop] at stays
    exact absurd (List.mem_map_of_mem erased) stays

/-- Pointers to values that stay are valid after the others are erased. -/
theorem refers_keep {pointers : List Nat} {values : List Value}
    (refer : List.Forall₂ arena.Refers pointers values)
    (stay : ∀ value ∈ values, value ∉ arena.values.drop position) :
    List.Forall₂ (arena.keep position).Refers pointers values := by
  induction refer with
  | nil => exact .nil
  | cons here _ ih =>
      rw [List.forall_mem_cons] at stay
      exact .cons (deref_keep here stay.1) (ih stay.2)

end Arena

end H2pp

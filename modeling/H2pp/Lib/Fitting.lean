import Mathlib.Algebra.BigOperators.Group.List.Basic
import Mathlib.Algebra.GroupWithZero.Nat

/-! # Longest prefixes that fit

Items with sizes, and the longest prefix of a list of them that fits in a given room.
-/

namespace H2pp.Fitting

variable {Item : Type} (size : Item → Nat)

/-- The sizes of some items together. -/
def total (items : List Item) : Nat := (items.map size).sum

/-- `kept` is the longest prefix of the items that fits in `room`. -/
structure Longest (room : Nat) (items kept : List Item) : Prop where
  isPrefix : kept <+: items
  fits : total size kept ≤ room
  longest : ∀ other, other <+: items → total size other ≤ room → other.length ≤ kept.length

variable {size} {room : Nat} {items kept : List Item}

/-- The size is additive. -/
@[simp] theorem total_append (first second : List Item) :
    total size (first ++ second) = total size first + total size second := by
  rw [total, List.map_append, List.sum_append, total, total]

/-- When all items fit, all are kept. -/
theorem longest_self (fits : total size items ≤ room) : Longest size room items items where
  isPrefix := List.prefix_refl _
  fits := fits
  longest _ part_of _ := part_of.length_le

/-- A prefix that fills the room is the longest, if all sizes are positive. -/
theorem longest_of_eq (positive : ∀ item ∈ items, 0 < size item) (part_of : kept <+: items)
    (fills : total size kept = room) : Longest size room items kept := by
  refine ⟨part_of, Nat.le_of_eq fills, fun other other_of fits => ?_⟩
  by_contra longer
  obtain ⟨rest, rfl⟩ := List.prefix_of_prefix_length_le part_of other_of
    (Nat.le_of_lt (Nat.not_le.mp longer))
  rw [total_append, fills] at fits
  cases rest with
  | nil => exact longer (Nat.le_of_eq (congrArg List.length (List.append_nil kept)))
  | cons item rest =>
      have some := positive item (other_of.subset (List.mem_append_right _ List.mem_cons_self))
      rw [total, List.map_cons, List.sum_cons] at fits
      omega

/-- Nothing is kept exactly if already the first item does not fit. -/
theorem longest_nil_iff :
    Longest size room items [] ↔ ∀ first ∈ items.head?, room < size first := by
  constructor
  · intro nothing first found
    cases items with
    | nil => cases found
    | cons item items =>
        cases found
        by_contra small
        have single : total size [first] ≤ room := by
          rw [total, List.map_singleton, List.sum_singleton]
          exact Nat.not_lt.mp small
        exact Nat.not_succ_le_zero 0 (nothing.longest [first] ⟨items, rfl⟩ single)
  · intro large
    refine ⟨List.nil_prefix, Nat.zero_le _, fun other part_of fits => ?_⟩
    cases other with
    | nil => exact Nat.le_refl _
    | cons item rest =>
        obtain ⟨more, rfl⟩ := part_of
        have exceeds := large item rfl
        rw [total, List.map_cons, List.sum_cons] at fits
        omega

end H2pp.Fitting

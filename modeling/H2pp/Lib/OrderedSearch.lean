import Mathlib.Order.Lattice
import Mathlib.Data.List.Pairwise
import Mathlib.Data.List.TakeWhile

/-! # Search in an ordered list

A list is searched by a probe that should hold for the elements below the one looked
for, and for no others. The probe need not come from the order of the list; the search
is sure to end at an element exactly if it does.
-/

namespace H2pp.OrderedSearch

variable {α β : Type} {set : List α} {probe : α → Bool} {entry : α}

/-- The probe divides the list, and the entry is the first for which it fails. -/
def FirstAt (set : List α) (probe : α → Bool) (entry : α) : Prop :=
  ∃ before after, set = before ++ entry :: after ∧ (∀ low ∈ before, probe low = true) ∧
    ∀ high ∈ entry :: after, probe high = false

/-- What is found is in the set. -/
theorem FirstAt.mem (first : FirstAt set probe entry) : entry ∈ set := by
  obtain ⟨before, after, rfl, -, -⟩ := first
  exact List.mem_append_right before List.mem_cons_self

/-- In an ordered list, the probe divides at an entry exactly if it says which elements
are below it. -/
theorem firstAt_iff [Preorder β] (key : α → β)
    (sorted : set.Pairwise fun low high => key low < key high) (member : entry ∈ set) :
    FirstAt set probe entry ↔ ∀ other ∈ set, probe other = true ↔ key other < key entry := by
  constructor
  · rintro ⟨before, after, rfl, low, high⟩ other found
    obtain ⟨-, upper, across⟩ := List.pairwise_append.mp sorted
    rcases List.mem_append.mp found with below | above
    · exact iff_of_true (low other below) (across other below entry List.mem_cons_self)
    · refine iff_of_false (Bool.eq_false_iff.mp (high other above)) ?_
      rcases List.mem_cons.mp above with rfl | later
      · exact lt_irrefl _
      · exact lt_asymm ((List.pairwise_cons.mp upper).1 other later)
  · intro agrees
    obtain ⟨before, after, rfl⟩ := List.append_of_mem member
    obtain ⟨-, upper, across⟩ := List.pairwise_append.mp sorted
    refine ⟨before, after, rfl, ?_, ?_⟩
    · intro low below
      exact (agrees low (List.mem_append_left _ below)).mpr
        (across low below entry List.mem_cons_self)
    · intro high above
      refine Bool.eq_false_iff.mpr fun probed => ?_
      have less := (agrees high (List.mem_append_right _ above)).mp probed
      rcases List.mem_cons.mp above with rfl | later
      · exact lt_irrefl _ less
      · exact lt_asymm ((List.pairwise_cons.mp upper).1 high later) less

/-- Cut off what the probe holds for: if it fails for all that is left, it divides there. -/
theorem firstAt_of_dropWhile {after : List α} (cut : set.dropWhile probe = entry :: after)
    (high : ∀ other ∈ entry :: after, probe other = false) : FirstAt set probe entry := by
  refine ⟨set.takeWhile probe, after, ?_, ?_, high⟩
  · rw [← cut, List.takeWhile_append_dropWhile]
  · exact fun low below => List.mem_takeWhile_imp below

end H2pp.OrderedSearch

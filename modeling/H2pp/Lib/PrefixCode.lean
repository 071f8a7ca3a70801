import Mathlib.Data.List.Basic

/-! # Prefix codes by code trees

A code is prefix-free as soon as all its words are leaves of one binary tree,
and whether they are can be computed. Reading a bit string from the root, the
first leaf met is the only symbol whose word starts the string. In a tree whose inner
nodes all have two subtrees, every string that is long enough starts with a word.
-/

namespace H2pp.PrefixCode

/-- A binary code tree with symbols at its leaves. -/
inductive Tree (α : Type)
  | empty
  | leaf (symbol : α)
  | node (zero one : Tree α)

namespace Tree

variable {α : Type}

/-- Put a symbol at the end of a path. -/
def insert (symbol : α) : List Bool → Tree α → Tree α
  | [], _ => leaf symbol
  | false :: word, node zero one => node (insert symbol word zero) one
  | true :: word, node zero one => node zero (insert symbol word one)
  | false :: word, _ => node (insert symbol word empty) empty
  | true :: word, _ => node empty (insert symbol word empty)

/-- The symbol at the end of a path, if a leaf stands there. -/
def walk : Tree α → List Bool → Option α
  | leaf symbol, [] => some symbol
  | node zero _, false :: word => walk zero word
  | node _ one, true :: word => walk one word
  | _, _ => none

/-- No path goes on below a leaf. -/
theorem eq_nil_of_walk_append {tree : Tree α} {word rest : List Bool} {first second : α}
    (reached : tree.walk word = some first) (further : tree.walk (word ++ rest) = some second) :
    rest = [] ∧ first = second := by
  induction word generalizing tree with
  | nil =>
      cases tree with
      | leaf symbol =>
          cases rest with
          | nil => exact ⟨rfl, Option.some.inj (reached.symm.trans further)⟩
          | cons bit rest => cases further
      | empty => cases reached
      | node zero one => cases reached
  | cons bit word ih =>
      cases tree with
      | leaf symbol => cases reached
      | empty => cases reached
      | node zero one =>
          cases bit with
          | false => exact ih reached further
          | true => exact ih reached further

/-- Every inner node has two subtrees. -/
def complete : Tree α → Bool
  | empty => false
  | leaf _ => true
  | node zero one => zero.complete && one.complete

/-- The length of the longest word. -/
def depth : Tree α → Nat
  | node zero one => max zero.depth one.depth + 1
  | _ => 0

/-- A string as long as the longest word of a complete tree starts with a word. -/
theorem exists_word {tree : Tree α} (full : tree.complete = true) {bits : List Bool}
    (long : tree.depth ≤ bits.length) :
    ∃ word rest symbol, bits = word ++ rest ∧ tree.walk word = some symbol := by
  induction tree generalizing bits with
  | empty => cases full
  | leaf symbol => exact ⟨[], bits, symbol, rfl, rfl⟩
  | node zero one ihZero ihOne =>
      rw [complete, Bool.and_eq_true] at full
      cases bits with
      | nil => exact absurd long (Nat.not_succ_le_zero _)
      | cons bit bits =>
          rw [depth, List.length_cons, Nat.add_le_add_iff_right, Nat.max_le] at long
          cases bit with
          | false =>
              obtain ⟨word, rest, symbol, split, reached⟩ := ihZero full.1 long.1
              exact ⟨false :: word, rest, symbol, by rw [split, List.cons_append], reached⟩
          | true =>
              obtain ⟨word, rest, symbol, split, reached⟩ := ihOne full.2 long.2
              exact ⟨true :: word, rest, symbol, by rw [split, List.cons_append], reached⟩

/-- A leaf after an insertion is the new one or was there before. -/
theorem walk_insert {tree : Tree α} {symbol other : α} {word path : List Bool}
    (reached : (tree.insert symbol word).walk path = some other) :
    word = path ∧ symbol = other ∨ tree.walk path = some other := by
  induction word generalizing tree path with
  | nil =>
      cases path with
      | nil => exact .inl ⟨rfl, Option.some.inj reached⟩
      | cons bit path => cases reached
  | cons bit word ih =>
      cases path with
      | nil => cases tree <;> cases bit <;> cases reached
      | cons step path =>
          -- the path leaves the new word and finds what was there, or follows it
          cases tree <;> cases bit <;> cases step <;>
            first
              | exact .inr reached
              | cases reached
              | exact (ih reached).imp_left fun same => ⟨congrArg _ same.1, same.2⟩

/-- The leaves of a tree made by insertions. -/
theorem walk_foldl_insert {Entry : Type} {symbolOf : Entry → α} {wordOf : Entry → List Bool}
    {entries : List Entry} {tree : Tree α} {path : List Bool} {symbol : α}
    (reached : (entries.foldl (fun tree entry => tree.insert (symbolOf entry) (wordOf entry))
      tree).walk path = some symbol) :
    (∃ entry ∈ entries, wordOf entry = path ∧ symbolOf entry = symbol) ∨
      tree.walk path = some symbol := by
  induction entries generalizing tree with
  | nil => exact .inr reached
  | cons entry entries ih =>
      rcases ih reached with ⟨later, member, same⟩ | before
      · exact .inl ⟨later, List.mem_cons_of_mem _ member, same⟩
      · exact (walk_insert before).imp_left fun same => ⟨entry, List.mem_cons_self, same⟩

end Tree

/-- Two words of one tree of which one starts the other belong to the same
symbol. -/
theorem eq_of_isPrefix {α : Type} {tree : Tree α} {shorter longer : List Bool} {first second : α}
    (firstLeaf : tree.walk shorter = some first) (secondLeaf : tree.walk longer = some second)
    (starts : shorter <+: longer) : shorter = longer ∧ first = second := by
  obtain ⟨rest, rfl⟩ := starts
  obtain ⟨none, same⟩ := Tree.eq_nil_of_walk_append firstLeaf secondLeaf
  exact ⟨by rw [none, List.append_nil], same⟩

end H2pp.PrefixCode

import H2pp.Error
import Mathlib.Algebra.BigOperators.Group.List.Basic

/-! # The dynamic table

`hpack/dynamic_table.cpp`. A dynamic table is a queue of records, newest first.
The sum of the sizes of records that are in memory does not wrap; the differences
the code computes from it can, and `shrink_to` then evicts the whole table.
-/

namespace H2pp.Hpack

/-- `dynamic_table::record`. -/
structure Record where
  name : Bytes
  value : Bytes
  initIndex : Nat
  deriving DecidableEq, Repr

/-- `record::hpack_size()`. -/
def Record.hpackSize (record : Record) : Nat := record.name.length + record.value.length + 32

/-- The sizes of some records together. -/
def totalSize (records : List Record) : Nat := (records.map Record.hpackSize).sum

/-- An empty table takes no space. -/
@[simp] theorem totalSize_nil : totalSize [] = 0 := rfl

/-- The size is summed record by record. -/
@[simp] theorem totalSize_cons (record : Record) (records : List Record) :
    totalSize (record :: records) = record.hpackSize + totalSize records := by
  rw [totalSize, List.map_cons, List.sum_cons, totalSize]

/-- The size is additive. -/
theorem totalSize_append (first second : List Record) :
    totalSize (first ++ second) = totalSize first + totalSize second := by
  rw [totalSize, List.map_append, List.sum_append, totalSize, totalSize]

/-- The order of the records does not matter for the size. -/
theorem totalSize_reverse (records : List Record) :
    totalSize records.reverse = totalSize records := by
  rw [totalSize, List.map_reverse, List.sum_reverse, totalSize]

/-- The eviction loop of `shrink_to`, over the records from the back: the records
that stay. The loop goes on while something is left to evict, and a record
larger than that makes the rest wrap around to a large number. -/
def evictionLoop : List Record → Nat → List Record
  | [], _ => []
  | record :: rest, evictionSize =>
      let evictionSize := (evictionSize + 2 ^ 64 - record.hpackSize) % 2 ^ 64
      if rest ≠ [] ∧ evictionSize > 0 then evictionLoop rest evictionSize else rest

/-- The records carry consecutive 32-bit numbers, the newest one the last. -/
def Numbered (table : List Record) : Prop :=
  ∃ base, ∀ (position : Nat) (record : Record), table[position]? = some record →
    record.initIndex < 2 ^ 32 ∧ (record.initIndex + position) % 2 ^ 32 = base % 2 ^ 32

/-- The number `insert_impl` gives to the next record. -/
def nextIndex : List Record → Nat
  | [] => 0
  | front :: _ => (front.initIndex + 1) % 2 ^ 32

/-- An empty table is numbered. -/
theorem Numbered.nil : Numbered [] := ⟨0, fun _ _ absent => nomatch absent⟩

/-- Eviction leaves the numbers of the other records alone. -/
theorem Numbered.take {table : List Record} (numbered : Numbered table) (count : Nat) :
    Numbered (table.take count) := by
  obtain ⟨base, numbers⟩ := numbered
  refine ⟨base, fun position record found => numbers position record ?_⟩
  rw [List.getElem?_take] at found
  split at found
  · exact found
  · cases found

/-- A new record gets the next number. -/
theorem Numbered.push {table : List Record} (numbered : Numbered table) (name value : Bytes) :
    Numbered (⟨name, value, nextIndex table⟩ :: table) := by
  obtain ⟨base, numbers⟩ := numbered
  have front : nextIndex table < 2 ^ 32 ∧ (table = [] ∨ nextIndex table = (base + 1) % 2 ^ 32) := by
    cases table with
    | nil => exact ⟨by decide, .inl rfl⟩
    | cons record table =>
        have number := (numbers 0 record rfl).2
        rw [nextIndex]
        exact ⟨Nat.mod_lt _ (by decide), .inr (by omega)⟩
  obtain ⟨bound, rfl | next⟩ := front
  · refine ⟨nextIndex [], ?_⟩
    intro position record found
    cases position with
    | zero => cases found; exact ⟨bound, rfl⟩
    | succ position => cases found
  · refine ⟨base + 1, ?_⟩
    intro position record found
    cases position with
    | zero =>
        cases found
        exact ⟨bound, by rw [next, Nat.add_zero, Nat.mod_mod]⟩
    | succ position =>
        obtain ⟨small, number⟩ := numbers position record found
        exact ⟨small, by omega⟩

/-- `dynamic_table`, newest record first. -/
structure DynamicTable where
  tableSize : Nat
  hpackMaxSize : Nat
  table : List Record
  sized : tableSize = totalSize table
  numbered : Numbered table

namespace DynamicTable

/-- `dynamic_table(max_size)`. -/
def create (maxSize : Nat) : DynamicTable := ⟨0, maxSize, [], rfl, Numbered.nil⟩

/-- `shrink_to(rq_size)`: the position from which records are to be erased. -/
def shrinkTo (dyn : DynamicTable) (rqSize : Nat) : Nat :=
  if dyn.tableSize ≤ rqSize then dyn.table.length
  else (evictionLoop dyn.table.reverse (dyn.tableSize - rqSize)).length

/-- `table.erase(it, table.end())`, with the sizes `shrink_to` has subtracted. -/
def eraseFrom (dyn : DynamicTable) (position : Nat) : DynamicTable where
  tableSize := dyn.tableSize - totalSize (dyn.table.drop position)
  hpackMaxSize := dyn.hpackMaxSize
  table := dyn.table.take position
  sized := by
    have whole := totalSize_append (dyn.table.take position) (dyn.table.drop position)
    rw [List.take_append_drop] at whole
    rw [dyn.sized, whole, Nat.add_sub_cancel]
  numbered := dyn.numbered.take position

/-- `insert_impl(r)`. -/
def insertImpl (dyn : DynamicTable) (name value : Bytes) : DynamicTable :=
  let record : Record := ⟨name, value, nextIndex dyn.table⟩
  { dyn with
    tableSize := dyn.tableSize + record.hpackSize
    table := record :: dyn.table
    sized := by rw [totalSize_cons, dyn.sized, Nat.add_comm]
    numbered := dyn.numbered.push name value }

/-- `dynamic_table::insert(name, value)`. -/
def insert (dyn : DynamicTable) (name value : Bytes) : DynamicTable :=
  let hsize := name.length + value.length + 32
  let rqSize :=
    if hsize + dyn.tableSize > dyn.hpackMaxSize then (dyn.hpackMaxSize + 2 ^ 64 - hsize) % 2 ^ 64
    else hsize + dyn.tableSize
  (dyn.eraseFrom (dyn.shrinkTo rqSize)).insertImpl name value

/-- `dynamic_table::update_size(size)`. -/
def updateSize (dyn : DynamicTable) (size : Nat) : DynamicTable :=
  { dyn.eraseFrom (dyn.shrinkTo size) with hpackMaxSize := size }

/-- `dynamic_table::at(i)`, for `i` from one on. -/
def atIndex (dyn : DynamicTable) (i : Nat) : Except Failure (Bytes × Bytes) :=
  match dyn.table[i - 1]? with
  | some record => .ok (record.name, record.value)
  | none => .error (.runtimeError "Invalid index")

/-- `record_index(r)`, converted to `int`. -/
def recordIndex (dyn : DynamicTable) (record : Record) : Int :=
  let back := match dyn.table.getLast? with
    | some back => back.initIndex
    | none => 0
  let index : Nat := (dyn.table.length + back + 2 ^ 32 - record.initIndex) % 2 ^ 32
  if index < 2 ^ 31 then index else (index : Int) - 2 ^ 32

/-- The records in front of `position` stay. -/
@[simp] theorem eraseFrom_table (dyn : DynamicTable) (position : Nat) :
    (dyn.eraseFrom position).table = dyn.table.take position := rfl

end DynamicTable

/-- A record takes at least the 32 bytes of its overhead. -/
theorem hpackSize_pos (record : Record) : 0 < record.hpackSize := by
  unfold Record.hpackSize
  omega

/-- One round of the loop, with the wrapped rest given by its case. -/
theorem evictionLoop_cons (record : Record) (rest : List Record) (evictionSize : Nat) :
    evictionLoop (record :: rest) evictionSize =
      if rest ≠ [] ∧ (evictionSize + 2 ^ 64 - record.hpackSize) % 2 ^ 64 > 0 then
        evictionLoop rest ((evictionSize + 2 ^ 64 - record.hpackSize) % 2 ^ 64)
      else rest := rfl

private theorem evictionLoop_suffix (records : List Record) (evictionSize : Nat) :
    evictionLoop records evictionSize <:+ records := by
  induction records generalizing evictionSize with
  | nil => exact List.suffix_refl _
  | cons record rest ih =>
      rw [evictionLoop_cons]
      split
      · exact (ih _).trans (List.suffix_cons record rest)
      · exact List.suffix_cons record rest

/-- What the eviction loop keeps is small enough: it stops only when the sizes
it has evicted are exactly what was asked for, or when nothing is left. -/
theorem evictionLoop_total (records : List Record) (evictionSize : Nat)
    (bound : totalSize records < 2 ^ 64) (small : evictionSize < 2 ^ 64) :
    evictionLoop records evictionSize = [] ∨
      totalSize (evictionLoop records evictionSize) + evictionSize ≤ totalSize records := by
  induction records generalizing evictionSize with
  | nil => exact .inl rfl
  | cons record rest ih =>
      have positive := hpackSize_pos record
      rw [totalSize_cons] at bound ⊢
      rw [evictionLoop_cons]
      by_cases more : rest ≠ [] ∧ (evictionSize + 2 ^ 64 - record.hpackSize) % 2 ^ 64 > 0
      · rw [if_pos more]
        rcases ih ((evictionSize + 2 ^ 64 - record.hpackSize) % 2 ^ 64) (by omega)
          (Nat.mod_lt _ (by decide)) with all | enough
        · exact .inl all
        · exact .inr (by omega)
      · rw [if_neg more]
        by_cases last : rest = []
        · exact .inl last
        · have exhausted : ¬ (evictionSize + 2 ^ 64 - record.hpackSize) % 2 ^ 64 > 0 :=
            fun left => more ⟨last, left⟩
          exact .inr (by omega)

/-- More than all but the newest record is asked for, and the table is emptied. -/
theorem evictionLoop_all (records : List Record) (newest : Record) (evictionSize : Nat)
    (asked : totalSize records < evictionSize) (small : evictionSize < 2 ^ 64) :
    evictionLoop (records ++ [newest]) evictionSize = [] := by
  induction records generalizing evictionSize with
  | nil =>
      rw [List.nil_append, evictionLoop_cons]
      simp only [ne_eq, not_true_eq_false, false_and, ↓reduceIte]
  | cons record rest ih =>
      rw [totalSize_cons] at asked
      have left : (evictionSize + 2 ^ 64 - record.hpackSize) % 2 ^ 64 =
          evictionSize - record.hpackSize := by omega
      rw [List.cons_append, evictionLoop_cons, left, if_pos ⟨by simp, by omega⟩]
      exact ih _ (by omega) (by omega)

/-- Only the sizes of the records matter for how many are kept. -/
theorem evictionLoop_length {first second : List Record} (evictionSize : Nat)
    (same : first.map Record.hpackSize = second.map Record.hpackSize) :
    (evictionLoop first evictionSize).length = (evictionLoop second evictionSize).length := by
  induction first generalizing second evictionSize with
  | nil =>
      rw [List.map_nil, eq_comm, List.map_eq_nil_iff] at same
      rw [same]
  | cons record rest ih =>
      cases second with
      | nil => exact absurd same (by simp)
      | cons other others =>
          simp only [List.map_cons, List.cons.injEq] at same
          obtain ⟨size, sizes⟩ := same
          have lengths := congrArg List.length sizes
          rw [List.length_map, List.length_map] at lengths
          have empty : rest ≠ [] ↔ others ≠ [] := by
            rw [← List.length_pos_iff, ← List.length_pos_iff, lengths]
          rw [evictionLoop_cons, evictionLoop_cons, size]
          by_cases more : others ≠ [] ∧ (evictionSize + 2 ^ 64 - other.hpackSize) % 2 ^ 64 > 0
          · rw [if_pos more, if_pos ⟨empty.mpr more.1, more.2⟩]
            exact ih _ sizes
          · rw [if_neg more, if_neg fun go => more ⟨empty.mp go.1, go.2⟩]
            exact lengths

namespace DynamicTable

/-- The records kept by the eviction loop are the newest ones. -/
theorem take_evictionLoop (table : List Record) (evictionSize : Nat) :
    table.take (evictionLoop table.reverse evictionSize).length =
      (evictionLoop table.reverse evictionSize).reverse := by
  obtain ⟨evicted, split⟩ := evictionLoop_suffix table.reverse evictionSize
  generalize evictionLoop table.reverse evictionSize = kept at split ⊢
  have whole : table = kept.reverse ++ evicted.reverse := by
    rw [← List.reverse_append, split, List.reverse_reverse]
  rw [whole, List.take_left' List.length_reverse]

/-- After shrinking, the table is as small as requested. -/
theorem eraseFrom_shrinkTo_tableSize (dyn : DynamicTable) (rqSize : Nat)
    (bound : dyn.tableSize < 2 ^ 64) :
    (dyn.eraseFrom (dyn.shrinkTo rqSize)).tableSize ≤ rqSize := by
  rw [(dyn.eraseFrom _).sized, eraseFrom_table, shrinkTo]
  split
  · rename_i fits
    rw [List.take_length, ← dyn.sized]
    exact fits
  · rename_i exceeds
    rw [take_evictionLoop, totalSize_reverse]
    have total := evictionLoop_total dyn.table.reverse (dyn.tableSize - rqSize)
      (by rw [totalSize_reverse, ← dyn.sized]; exact bound) (by omega)
    rw [totalSize_reverse, ← dyn.sized] at total
    rcases total with all | enough
    · rw [all]
      exact Nat.zero_le _
    · omega

/-- A record's index is its position counted from one, however often the
numbers have wrapped around, as long as that is an `int`. -/
theorem recordIndex_of_lt (dyn : DynamicTable) {position : Nat} {record : Record}
    (found : dyn.table[position]? = some record) (small : position + 1 < 2 ^ 31) :
    dyn.recordIndex record = (position : Int) + 1 := by
  obtain ⟨base, numbers⟩ := dyn.numbered
  obtain ⟨bound, number⟩ := numbers position record found
  have inside : position < dyn.table.length := (List.getElem?_eq_some_iff.mp found).1
  have last : dyn.table[dyn.table.length - 1]? =
      some (dyn.table[dyn.table.length - 1]) := List.getElem?_eq_getElem (by omega)
  obtain ⟨-, backNumber⟩ := numbers _ _ last
  rw [recordIndex, List.getLast?_eq_getElem?, last]
  simp only
  generalize (dyn.table[dyn.table.length - 1]).initIndex = back at backNumber
  have index : (dyn.table.length + back + 2 ^ 32 - record.initIndex) % 2 ^ 32 = position + 1 := by
    omega
  rw [index, if_pos small]
  rfl

/-- The index of a record is its position, counted from one. -/
theorem recordIndex_eq (dyn : DynamicTable) {position : Nat} {record : Record}
    (found : dyn.table[position]? = some record) (few : dyn.table.length < 2 ^ 31) :
    dyn.recordIndex record = (position : Int) + 1 :=
  dyn.recordIndex_of_lt found
    (Nat.lt_of_le_of_lt (List.getElem?_eq_some_iff.mp found).1 few)

/-- An index finds the record at its position. -/
theorem atIndex_eq {dyn : DynamicTable} {position : Nat} {record : Record}
    (found : dyn.table[position]? = some record) :
    dyn.atIndex (position + 1) = .ok (record.name, record.value) := by
  rw [atIndex, Nat.add_sub_cancel, found]

end DynamicTable

end H2pp.Hpack

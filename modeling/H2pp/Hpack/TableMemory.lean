import H2pp.Hpack.OrderedIndex
import H2pp.Lib.Arena

/-! # The dynamic tables in memory

`hpack/dynamic_table.cpp` and `hpack/indexed_dynamic_table.cpp` once more, one level
below: records have addresses, `index_set` holds pointers, `shrink_to` moves an iterator
and changes `table_size` before the records are erased, and all sizes are 64-bit. A step
back from the first record and a pointer to an erased one are undefined. Neither happens,
and as long as the sizes do not wrap these tables are those of the other modules.
-/

namespace H2pp.Hpack

/-- `dynamic_table`, with the addresses of its records. -/
structure MemoryTable where
  tableSize : Nat
  hpackMaxSize : Nat
  table : Arena Record

namespace MemoryTable

/-- `dynamic_table(max_size)`. -/
def create (maxSize : Nat) : MemoryTable := ⟨0, maxSize, .empty⟩

/-- The loop of `shrink_to` from iterator `it` on, with the bytes to evict and
`table_size`: the iterator returned, and `table_size` after the loop. -/
def shrinkLoop (records : List Record) : Nat → Nat → Nat → Except Failure (Nat × Nat)
  | 0, _, _ => .error .undefinedBehaviour
  | it + 1, evictionSize, tableSize =>
      match records[it]? with
      | none => .error .undefinedBehaviour
      | some record =>
          let sz := record.hpackSize % 2 ^ 64
          let evictionSize := (evictionSize + 2 ^ 64 - sz) % 2 ^ 64
          let tableSize := (tableSize + 2 ^ 64 - sz) % 2 ^ 64
          if it ≠ 0 ∧ evictionSize > 0 then shrinkLoop records it evictionSize tableSize
          else .ok (it, tableSize)

/-- `shrink_to(rq_size)`: the iterator, and `table_size` after the call. -/
def shrinkTo (dyn : MemoryTable) (rqSize : Nat) : Except Failure (Nat × Nat) :=
  if dyn.tableSize ≤ rqSize then .ok (dyn.table.cells.length, dyn.tableSize)
  else
    shrinkLoop dyn.table.values dyn.table.cells.length (dyn.tableSize - rqSize) dyn.tableSize

/-- `table.erase(it, table.end())`, after `shrink_to` has changed `table_size`. -/
def erase (dyn : MemoryTable) (it tableSize : Nat) : MemoryTable :=
  { dyn with tableSize, table := dyn.table.keep it }

/-- `insert_impl(r)`. -/
def insertImpl (dyn : MemoryTable) (name value : Bytes) : MemoryTable :=
  let record : Record := ⟨name, value, nextIndex dyn.table.values⟩
  { dyn with
    tableSize := (dyn.tableSize + record.hpackSize) % 2 ^ 64
    table := dyn.table.pushFront record }

/-- `dynamic_table::insert(name, value)`. -/
def insert (dyn : MemoryTable) (name value : Bytes) : Except Failure MemoryTable := do
  let hsize := (name.length + value.length + 32) % 2 ^ 64
  let rqSize :=
    if (hsize + dyn.tableSize) % 2 ^ 64 > dyn.hpackMaxSize then
      (dyn.hpackMaxSize + 2 ^ 64 - hsize) % 2 ^ 64
    else (hsize + dyn.tableSize) % 2 ^ 64
  let (it, tableSize) ← dyn.shrinkTo rqSize
  .ok ((dyn.erase it tableSize).insertImpl name value)

/-- `dynamic_table::update_size(size)`. -/
def updateSize (dyn : MemoryTable) (size : Nat) : Except Failure MemoryTable := do
  let (it, tableSize) ← dyn.shrinkTo size
  .ok { dyn.erase it tableSize with hpackMaxSize := size }

/-- One change of the table. -/
def change (dyn : MemoryTable) : TableChange → Except Failure MemoryTable
  | .insert name value => dyn.insert name value
  | .updateSize size => dyn.updateSize size

/-- `dynamic_table::at(i)`: the record whose name and value are returned. -/
def atIndex (dyn : MemoryTable) (i : Nat) : Except Failure (Cell Record) :=
  if i ≤ dyn.table.cells.length then
    match i with
    | 0 => .error .undefinedBehaviour
    | position + 1 =>
        match dyn.table.cells[position]? with
        | some cell => .ok cell
        | none => .error .undefinedBehaviour
  else .error (.runtimeError "Invalid index")

/-- `record_index(r)`, a `size_t`. -/
def recordIndex (dyn : MemoryTable) (pointer : Nat) : Except Failure Nat :=
  match dyn.table.values.getLast?, dyn.table.deref pointer with
  | some back, some record =>
      .ok ((dyn.table.cells.length + back.initIndex + 2 ^ 64 - record.initIndex) % 2 ^ 64)
  | _, _ => .error .undefinedBehaviour

/-- The conversion from `size_t` to `int`. -/
def toInt (index : Nat) : Int :=
  if index % 2 ^ 32 < 2 ^ 31 then (index % 2 ^ 32 : Nat) else (index % 2 ^ 32 : Nat) - 2 ^ 32

end MemoryTable

/-- `indexed_dynamic_table`: `index_set` holds the addresses of records. -/
structure IndexedMemoryTable extends MemoryTable where
  indexSet : List Nat

namespace IndexedMemoryTable

/-- `indexed_dynamic_table(max_size)`. -/
def create (maxSize : Nat) : IndexedMemoryTable := ⟨.create maxSize, []⟩

/-- What `index_comparator` reads through a pointer. -/
def dereference (table : Arena Record) (pointer : Nat) : Except Failure Record :=
  match table.deref pointer with
  | some record => .ok record
  | none => .error .undefinedBehaviour

/-- `index_set.erase(&r)`, with the pointers it may compare. -/
def erasePointer (table : Arena Record) (record : Record) : List Nat → Except Failure (List Nat)
  | [] => .ok []
  | pointer :: set => do
      let entry ← dereference table pointer
      let rest ← erasePointer table record set
      .ok (if sameKey record entry then rest else pointer :: rest)

/-- `index_set.insert(&r)`, with the pointers it may compare. -/
def insertPointer (table : Arena Record) (address : Nat) (record : Record) :
    List Nat → Except Failure (List Nat)
  | [] => .ok [address]
  | pointer :: set => do
      let entry ← dereference table pointer
      if sameKey record entry then .ok (pointer :: set)
      else if recordLess record entry then .ok (address :: pointer :: set)
      else do
        let rest ← insertPointer table address record set
        .ok (pointer :: rest)

/-- `shrink_to`, then `index_set.erase` for all records from the iterator on, then
`table.erase`. -/
def evict (dyn : IndexedMemoryTable) (rqSize : Nat) : Except Failure IndexedMemoryTable := do
  let (it, tableSize) ← dyn.shrinkTo rqSize
  let indexSet ← (dyn.table.values.drop it).foldlM
    (fun set record => erasePointer dyn.table record set) dyn.indexSet
  .ok ⟨dyn.erase it tableSize, indexSet⟩

/-- `indexed_dynamic_table::insert(name, value)`. -/
def insert (dyn : IndexedMemoryTable) (name value : Bytes) :
    Except Failure IndexedMemoryTable := do
  let hsize := (name.length + value.length + 32) % 2 ^ 64
  let rqSize := if hsize > dyn.hpackMaxSize then 0 else dyn.hpackMaxSize - hsize
  let kept ← dyn.evict rqSize
  let table := kept.insertImpl name value
  let indexSet ← insertPointer table.table kept.table.fresh
    ⟨name, value, nextIndex kept.table.values⟩ kept.indexSet
  .ok ⟨table, indexSet⟩

/-- `indexed_dynamic_table::update_size(size)`. -/
def updateSize (dyn : IndexedMemoryTable) (size : Nat) : Except Failure IndexedMemoryTable := do
  let kept ← dyn.evict size
  .ok { kept with hpackMaxSize := size }

/-- One change of the table. -/
def change (dyn : IndexedMemoryTable) : TableChange → Except Failure IndexedMemoryTable
  | .insert name value => dyn.insert name value
  | .updateSize size => dyn.updateSize size

end IndexedMemoryTable

/-! ## Evictions -/

namespace MemoryTable

variable {records : List Record} {it : Nat}

private theorem totalSize_take_succ (inside : it < records.length) :
    totalSize (records.take (it + 1)) = totalSize (records.take it) + records[it].hpackSize := by
  rw [List.take_succ_eq_append_getElem inside, totalSize_append, totalSize_cons, totalSize_nil,
    Nat.add_zero]

/-- One round of the loop takes the size of its record off `table_size`. -/
theorem shrinkLoop_succ (inside : it < records.length) (evictionSize : Nat) :
    shrinkLoop records (it + 1) evictionSize (totalSize (records.take (it + 1)) % 2 ^ 64) =
      if it ≠ 0 ∧ (evictionSize + 2 ^ 64 - records[it].hpackSize % 2 ^ 64) % 2 ^ 64 > 0 then
        shrinkLoop records it ((evictionSize + 2 ^ 64 - records[it].hpackSize % 2 ^ 64) % 2 ^ 64)
          (totalSize (records.take it) % 2 ^ 64)
      else .ok (it, totalSize (records.take it) % 2 ^ 64) := by
  have taken : (totalSize (records.take (it + 1)) % 2 ^ 64 + 2 ^ 64 -
      records[it].hpackSize % 2 ^ 64) % 2 ^ 64 = totalSize (records.take it) % 2 ^ 64 := by
    rw [totalSize_take_succ inside]
    omega
  rw [shrinkLoop, List.getElem?_eq_getElem inside]
  simp only [taken]

private theorem evictionLoop_take_succ (inside : it < records.length)
    (small : records[it].hpackSize < 2 ^ 64) (evictionSize : Nat) :
    evictionLoop (records.take (it + 1)).reverse evictionSize =
      if it ≠ 0 ∧ (evictionSize + 2 ^ 64 - records[it].hpackSize % 2 ^ 64) % 2 ^ 64 > 0 then
        evictionLoop (records.take it).reverse
          ((evictionSize + 2 ^ 64 - records[it].hpackSize % 2 ^ 64) % 2 ^ 64)
      else (records.take it).reverse := by
  have some : (records.take it).reverse ≠ [] ↔ it ≠ 0 := by
    rw [← List.length_pos_iff, List.length_reverse, List.length_take]
    omega
  rw [List.take_succ_eq_append_getElem inside, List.reverse_append, List.reverse_singleton,
    List.singleton_append, evictionLoop_cons, Nat.mod_eq_of_lt small]
  simp only [some]

/-- The loop ends before the first record; `table_size` is then the size of the records
before the iterator, and the records kept are those of `evictionLoop`. -/
theorem shrinkLoop_spec (inside : it < records.length) (evictionSize : Nat) :
    ∃ kept ≤ it,
      shrinkLoop records (it + 1) evictionSize (totalSize (records.take (it + 1)) % 2 ^ 64) =
        .ok (kept, totalSize (records.take kept) % 2 ^ 64) ∧
      ((∀ record ∈ records, record.hpackSize < 2 ^ 64) →
        kept = (evictionLoop (records.take (it + 1)).reverse evictionSize).length) := by
  induction it generalizing evictionSize with
  | zero =>
      rw [shrinkLoop_succ inside, if_neg fun more => more.1 rfl]
      refine ⟨0, Nat.le_refl _, rfl, fun fits => ?_⟩
      rw [evictionLoop_take_succ inside (fits _ (List.getElem_mem inside)),
        if_neg fun more => more.1 rfl]
      rfl
  | succ it ih =>
      rw [shrinkLoop_succ inside]
      by_cases more : it + 1 ≠ 0 ∧
          (evictionSize + 2 ^ 64 - records[it + 1].hpackSize % 2 ^ 64) % 2 ^ 64 > 0
      · rw [if_pos more]
        obtain ⟨kept, lower, ran, same⟩ := ih (Nat.lt_of_succ_lt inside) _
        refine ⟨kept, Nat.le_succ_of_le lower, ran, fun fits => ?_⟩
        rw [evictionLoop_take_succ inside (fits _ (List.getElem_mem inside)), if_pos more]
        exact same fits
      · rw [if_neg more]
        refine ⟨it + 1, Nat.le_refl _, rfl, fun fits => ?_⟩
        rw [evictionLoop_take_succ inside (fits _ (List.getElem_mem inside)), if_neg more,
          List.length_reverse, List.length_take, Nat.min_eq_left (Nat.le_of_lt inside)]

/-- `table_size` is the size of the records, as a `size_t`. -/
def Sized (dyn : MemoryTable) : Prop := dyn.tableSize = totalSize dyn.table.values % 2 ^ 64

/-- `shrink_to` never leaves the table, and `table_size` is then that of the records
before the iterator. -/
theorem shrinkTo_spec {dyn : MemoryTable} (sized : dyn.Sized) (rqSize : Nat) :
    ∃ kept, dyn.shrinkTo rqSize =
        .ok (kept, totalSize (dyn.table.values.take kept) % 2 ^ 64) ∧
      ((∀ record ∈ dyn.table.values, record.hpackSize < 2 ^ 64) →
        kept = if dyn.tableSize ≤ rqSize then dyn.table.values.length
          else (evictionLoop dyn.table.values.reverse (dyn.tableSize - rqSize)).length) := by
  rw [shrinkTo]
  by_cases fits : dyn.tableSize ≤ rqSize
  · refine ⟨dyn.table.cells.length, ?_, fun _ => ?_⟩
    · rw [if_pos fits, ← Arena.length_values, List.take_length, sized]
    · rw [if_pos fits, Arena.length_values]
  · rw [if_neg fits, if_neg fits]
    have some : dyn.table.values ≠ [] := by
      intro none
      rw [Sized, none] at sized
      exact fits (sized ▸ Nat.zero_le _)
    have positive := List.length_pos_iff.mpr some
    obtain ⟨kept, -, ran, same⟩ := shrinkLoop_spec
      (show dyn.table.values.length - 1 < dyn.table.values.length by omega)
      (dyn.tableSize - rqSize)
    rw [Nat.sub_add_cancel positive, List.take_length, ← sized, Arena.length_values] at ran
    rw [Nat.sub_add_cancel positive, List.take_length] at same
    exact ⟨kept, ran, same⟩

private theorem Sized.insertImpl {dyn : MemoryTable} (sized : dyn.Sized) (name value : Bytes) :
    (dyn.insertImpl name value).Sized := by
  simp only [Sized, MemoryTable.insertImpl, Arena.values_pushFront, totalSize_cons] at sized ⊢
  omega

private theorem sized_erase (dyn : MemoryTable) (it : Nat) :
    (dyn.erase it (totalSize (dyn.table.values.take it) % 2 ^ 64)).Sized := by
  rw [Sized, erase, Arena.values_keep]

/-- Every change of a table with exact bookkeeping is defined and keeps it exact. -/
theorem change_sized {dyn : MemoryTable} (sized : dyn.Sized) (change : TableChange) :
    ∃ next, dyn.change change = .ok next ∧ next.Sized := by
  cases change with
  | insert name value =>
      simp only [MemoryTable.change, insert]
      obtain ⟨kept, shrunk, -⟩ := shrinkTo_spec sized
        (if ((name.length + value.length + 32) % 2 ^ 64 + dyn.tableSize) % 2 ^ 64 >
            dyn.hpackMaxSize then
          (dyn.hpackMaxSize + 2 ^ 64 - (name.length + value.length + 32) % 2 ^ 64) % 2 ^ 64
        else ((name.length + value.length + 32) % 2 ^ 64 + dyn.tableSize) % 2 ^ 64)
      rw [shrunk, Outcome.ok_bind]
      exact ⟨_, rfl, (sized_erase dyn kept).insertImpl name value⟩
  | updateSize size =>
      obtain ⟨kept, shrunk, -⟩ := shrinkTo_spec sized size
      simp only [MemoryTable.change, updateSize]
      rw [shrunk, Outcome.ok_bind]
      exact ⟨_, rfl, sized_erase dyn kept⟩

end MemoryTable

/-! ## The index -/

namespace IndexedMemoryTable

open IndexedDynamicTable (insertIndex eraseIndex mem_eraseIndex eraseIndex_sublist Ordered)

variable {table : Arena Record} {set : List Nat} {entries : List Record}

private theorem erasePointer_spec (refer : List.Forall₂ table.Refers set entries)
    (record : Record) :
    ∃ left, erasePointer table record set = .ok left ∧
      List.Forall₂ table.Refers left (entries.filter fun entry => !sameKey record entry) := by
  induction refer with
  | nil => exact ⟨[], rfl, .nil⟩
  | @cons pointer entry set entries here _ ih =>
      obtain ⟨left, erased, refer⟩ := ih
      have found : dereference table pointer = .ok entry := by rw [dereference, here]
      rw [erasePointer, found, Outcome.ok_bind, erased, Outcome.ok_bind]
      cases same : sameKey record entry with
      | true => exact ⟨left, rfl, by simpa [same] using refer⟩
      | false => exact ⟨pointer :: left, rfl, by simpa [same] using ⟨here, refer⟩⟩

/-- Erasing records from `index_set` erases what is equal to them. -/
theorem erasePointers_spec (refer : List.Forall₂ table.Refers set entries)
    (evicted : List Record) :
    ∃ left, evicted.foldlM (fun set record => erasePointer table record set) set = .ok left ∧
      List.Forall₂ table.Refers left (eraseIndex evicted entries) := by
  induction evicted generalizing set entries with
  | nil => exact ⟨set, rfl, refer⟩
  | cons record evicted ih =>
      obtain ⟨first, erased, refer⟩ := erasePointer_spec refer record
      obtain ⟨left, rest, refer⟩ := ih refer
      refine ⟨left, ?_, refer⟩
      rw [List.foldlM_cons, erased, Outcome.ok_bind, rest]

private theorem insertPointer_spec {address : Nat} {record : Record}
    (refer : List.Forall₂ table.Refers set entries) (new : table.Refers address record) :
    ∃ next, insertPointer table address record set = .ok next ∧
      List.Forall₂ table.Refers next (insertIndex record entries) := by
  induction refer with
  | nil => exact ⟨[address], rfl, .cons new .nil⟩
  | @cons pointer entry set entries here later ih =>
      obtain ⟨next, inserted, refer⟩ := ih
      have found : dereference table pointer = .ok entry := by rw [dereference, here]
      rw [insertPointer, insertIndex, found, Outcome.ok_bind]
      by_cases same : sameKey record entry
      · rw [if_pos same, if_pos same]
        exact ⟨_, rfl, .cons here later⟩
      · rw [if_neg same, if_neg same]
        by_cases less : recordLess record entry
        · rw [if_pos less, if_pos less]
          exact ⟨_, rfl, .cons new (.cons here later)⟩
        · rw [if_neg less, if_neg less, inserted, Outcome.ok_bind]
          exact ⟨_, rfl, .cons here refer⟩

/-- The bookkeeping of a table is exact: its size is that of its records, they are
numbered, and the pointers of its index refer to `entries`, which are ordered. -/
structure Exact (dyn : IndexedMemoryTable) (entries : List Record) : Prop where
  sized : dyn.Sized
  numbered : Numbered dyn.table.values
  refers : List.Forall₂ dyn.table.Refers dyn.indexSet entries
  ordered : Ordered entries

namespace Exact

variable {dyn : IndexedMemoryTable}

private theorem create (maxSize : Nat) : Exact (.create maxSize) [] :=
  ⟨rfl, Numbered.nil, .nil, .nil⟩

/-- An eviction is defined. The pointers that stay in the index refer to records that
stay in the table. -/
theorem evict (exact : dyn.Exact entries) (rqSize : Nat) :
    ∃ kept next, dyn.evict rqSize = .ok next ∧
      next.Exact (eraseIndex (dyn.table.values.drop kept) entries) ∧
      next.table.values = dyn.table.values.take kept ∧ next.hpackMaxSize = dyn.hpackMaxSize ∧
      ((∀ record ∈ dyn.table.values, record.hpackSize < 2 ^ 64) →
        kept = if dyn.tableSize ≤ rqSize then dyn.table.values.length
          else (evictionLoop dyn.table.values.reverse (dyn.tableSize - rqSize)).length) := by
  obtain ⟨kept, shrunk, same⟩ := MemoryTable.shrinkTo_spec exact.sized rqSize
  obtain ⟨left, erased, refer⟩ := erasePointers_spec exact.refers (dyn.table.values.drop kept)
  refine ⟨kept, ⟨dyn.erase kept (totalSize (dyn.table.values.take kept) % 2 ^ 64), left⟩, ?_,
    ⟨MemoryTable.sized_erase _ kept, ?_, ?_, ?_⟩, ?_, rfl, same⟩
  · rw [IndexedMemoryTable.evict, shrunk, Outcome.ok_bind]
    simp only [erased, Outcome.ok_bind]
  · simp only [MemoryTable.erase, Arena.values_keep]
    exact exact.numbered.take kept
  · exact Arena.refers_keep refer fun entry member => (mem_eraseIndex member).2
  · exact exact.ordered.sublist (eraseIndex_sublist _ _)
  · simp only [MemoryTable.erase, Arena.values_keep]

/-- Inserting a record is defined, and leaves its pointer or an equal one in the index. -/
theorem insertRecord (exact : dyn.Exact entries) (name value : Bytes) :
    ∃ next, insertPointer (dyn.insertImpl name value).table dyn.table.fresh
        ⟨name, value, nextIndex dyn.table.values⟩ dyn.indexSet = .ok next ∧
      Exact ⟨dyn.insertImpl name value, next⟩
        (insertIndex ⟨name, value, nextIndex dyn.table.values⟩ entries) := by
  have refer : List.Forall₂ (dyn.insertImpl name value).table.Refers dyn.indexSet entries :=
    exact.refers.imp fun _ _ here => Arena.deref_pushFront here _
  obtain ⟨next, inserted, refer⟩ := insertPointer_spec refer Arena.deref_pushFront_fresh
  exact ⟨next, inserted, exact.sized.insertImpl name value, exact.numbered.push name value, refer,
    exact.ordered.insertIndex⟩

/-- Every change of a table with exact bookkeeping is defined and keeps it exact. -/
theorem change (exact : dyn.Exact entries) (change : TableChange) :
    ∃ next after, dyn.change change = .ok next ∧ next.Exact after := by
  cases change with
  | insert name value =>
      obtain ⟨kept, next, evicted, exact, -⟩ := exact.evict
        (if (name.length + value.length + 32) % 2 ^ 64 > dyn.hpackMaxSize then 0
          else dyn.hpackMaxSize - (name.length + value.length + 32) % 2 ^ 64)
      obtain ⟨set, inserted, exact⟩ := exact.insertRecord name value
      refine ⟨_, _, ?_, exact⟩
      simp only [IndexedMemoryTable.change, insert, evicted, Outcome.ok_bind, inserted]
  | updateSize size =>
      obtain ⟨kept, next, evicted, exact, -⟩ := exact.evict size
      refine ⟨{ next with hpackMaxSize := size }, _, ?_,
        ⟨exact.sized, exact.numbered, exact.refers, exact.ordered⟩⟩
      simp only [IndexedMemoryTable.change, updateSize, evicted, Outcome.ok_bind]

end Exact

/-- After any changes of an empty table the bookkeeping is exact. -/
theorem run_exact (initial : Nat) (changes : List TableChange) :
    ∃ dyn, changes.foldlM change (create initial) = .ok dyn ∧ ∃ entries, dyn.Exact entries := by
  refine Outcome.foldlM_total ?_ ⟨[], Exact.create initial⟩ changes
  rintro dyn change ⟨entries, exact⟩
  obtain ⟨next, after, changed, exact⟩ := exact.change change
  exact ⟨next, changed, after, exact⟩

end IndexedMemoryTable

private theorem MemoryTable.run_sized (initial : Nat) (changes : List TableChange) :
    ∃ dyn, changes.foldlM MemoryTable.change (.create initial) = .ok dyn ∧ dyn.Sized :=
  Outcome.foldlM_total (fun _ change sized => change_sized sized change)
    (show (MemoryTable.create initial).Sized from rfl) changes

/-- **Bookkeeping.** Any changes of either table are defined: `shrink_to` does not step
back from the first record, and no pointer to an erased record is followed. After them
`table_size` is the sum of the sizes of the records, as a `size_t`, and every pointer of
`index_set` refers to a record of the table, no two to equal ones. -/
theorem bookkeeping_exact (initial : Nat) (changes : List TableChange) :
    (∃ dyn, changes.foldlM MemoryTable.change (.create initial) = .ok dyn ∧
        dyn.tableSize = totalSize dyn.table.values % 2 ^ 64) ∧
      ∃ dyn entries, changes.foldlM IndexedMemoryTable.change (.create initial) = .ok dyn ∧
        dyn.tableSize = totalSize dyn.table.values % 2 ^ 64 ∧
        List.Forall₂ dyn.table.Refers dyn.indexSet entries ∧
        entries.Pairwise fun lhs rhs => ¬ (lhs.name = rhs.name ∧ lhs.value = rhs.value) := by
  refine ⟨MemoryTable.run_sized initial changes, ?_⟩
  obtain ⟨dyn, ran, entries, exact⟩ := IndexedMemoryTable.run_exact initial changes
  refine ⟨dyn, entries, ran, exact.sized, exact.refers, exact.ordered.imp ?_⟩
  intro low high less same
  exact lt_irrefl _ (key_inj.mpr same ▸ less)

/-! ## Numbers -/

/-- The `int` made from the index of a record is its position counted from one. -/
theorem MemoryTable.toInt_recordIndex {dyn : MemoryTable} (numbered : Numbered dyn.table.values)
    (few : dyn.table.cells.length < 2 ^ 31) {position : Nat} {cell : Cell Record}
    (found : dyn.table.cells[position]? = some cell) :
    ∃ index, dyn.recordIndex cell.address = .ok index ∧ toInt index = (position : Int) + 1 := by
  obtain ⟨base, numbers⟩ := numbered
  have inside : position < dyn.table.cells.length := (List.getElem?_eq_some_iff.mp found).1
  have value : dyn.table.values[position]? = some cell.value := by
    rw [Arena.values, List.getElem?_map, found, Option.map_some]
  obtain ⟨bound, number⟩ := numbers position cell.value value
  obtain ⟨back, last⟩ : ∃ back, dyn.table.values[dyn.table.values.length - 1]? = some back :=
    ⟨_, List.getElem?_eq_getElem (by rw [Arena.length_values]; omega)⟩
  obtain ⟨backBound, backNumber⟩ := numbers _ _ last
  rw [Arena.length_values] at backNumber
  refine ⟨(dyn.table.cells.length + back.initIndex + 2 ^ 64 - cell.value.initIndex) % 2 ^ 64,
    ?_, ?_⟩
  · rw [recordIndex, List.getLast?_eq_getElem?, last,
      Arena.deref_of_mem (List.mem_of_getElem? found)]
  · have index : (dyn.table.cells.length + back.initIndex + 2 ^ 64 - cell.value.initIndex) %
        2 ^ 64 % 2 ^ 32 = position + 1 := by
      omega
    rw [toInt, index, if_pos (by omega)]
    rfl

private theorem MemoryTable.atIndex_succ {dyn : MemoryTable} {position : Nat} {cell : Cell Record}
    (found : dyn.table.cells[position]? = some cell) : dyn.atIndex (position + 1) = .ok cell := by
  have inside : position + 1 ≤ dyn.table.cells.length := (List.getElem?_eq_some_iff.mp found).1
  rw [atIndex, if_pos inside]
  simp only [found]

/-- **Indices after a wrap.** After any number of changes, the numbers of neighbouring
records differ by one modulo `2^32`, and the `int` that is made from the index of a record
is the one under which `at` returns it. -/
theorem recordIndex_after_wrap (initial : Nat) (changes : List TableChange)
    (dyn : IndexedMemoryTable)
    (ran : changes.foldlM IndexedMemoryTable.change (.create initial) = .ok dyn)
    (few : dyn.table.cells.length < 2 ^ 31) :
    (∀ (position : Nat) (newer older : Record), dyn.table.values[position]? = some newer →
        dyn.table.values[position + 1]? = some older →
          newer.initIndex = (older.initIndex + 1) % 2 ^ 32) ∧
      ∀ (position : Nat) (cell : Cell Record), dyn.table.cells[position]? = some cell →
        ∃ index, dyn.recordIndex cell.address = .ok index ∧
          MemoryTable.toInt index = (position : Int) + 1 ∧
          dyn.atIndex (MemoryTable.toInt index).toNat = .ok cell := by
  obtain ⟨reached, same, entries, exact⟩ := IndexedMemoryTable.run_exact initial changes
  rw [ran, Except.ok.injEq] at same
  subst same
  constructor
  · intro position newer older front back
    obtain ⟨base, numbers⟩ := exact.numbered
    obtain ⟨small, number⟩ := numbers position newer front
    obtain ⟨-, before⟩ := numbers (position + 1) older back
    omega
  · intro position cell found
    obtain ⟨index, indexed, converted⟩ := MemoryTable.toInt_recordIndex exact.numbered few found
    refine ⟨index, indexed, converted, ?_⟩
    rw [converted, show ((position : Int) + 1).toNat = position + 1 by omega]
    exact MemoryTable.atIndex_succ found

/-- Two records after an eviction. -/
theorem recordIndex_after_eviction :
    ∃ dyn, [TableChange.insert [97] [], .insert [98] [], .updateSize 33, .insert [99] [],
        .updateSize 100, .insert [97] []].foldlM IndexedMemoryTable.change (.create 4096) =
          .ok dyn ∧ dyn.table.cells.length = 2 ∧
      ∀ (position : Nat) (cell : Cell Record), dyn.table.cells[position]? = some cell →
        ∃ index, dyn.recordIndex cell.address = .ok index ∧
          MemoryTable.toInt index = (position : Int) + 1 ∧
          dyn.atIndex (MemoryTable.toInt index).toNat = .ok cell := by
  have passes : ([TableChange.insert [97] [], .insert [98] [], .updateSize 33, .insert [99] [],
      .updateSize 100, .insert [97] []].foldlM IndexedMemoryTable.change
        (.create 4096)).toOption.any (fun dyn => decide (dyn.table.cells.length = 2)) = true := by
    decide +kernel
  obtain ⟨dyn, ran, length⟩ := Outcome.exists_ok_of_any passes
  have two := of_decide_eq_true length
  exact ⟨dyn, ran, two, (recordIndex_after_wrap 4096 _ dyn ran (by omega)).2⟩

/-! ## The tables without addresses -/

private theorem hpackSize_le_totalSize {records : List Record} {record : Record}
    (member : record ∈ records) : record.hpackSize ≤ totalSize records := by
  obtain ⟨newer, older, rfl⟩ := List.append_of_mem member
  rw [totalSize_append, totalSize_cons]
  omega

namespace MemoryTable

/-- A table in memory holds the records of a table without addresses. -/
structure Holds (memory : MemoryTable) (dyn : DynamicTable) : Prop where
  sized : memory.Sized
  records : memory.table.values = dyn.table
  maxSize : memory.hpackMaxSize = dyn.hpackMaxSize

namespace Holds

variable {memory : MemoryTable} {dyn : DynamicTable}

private theorem create (maxSize : Nat) : (MemoryTable.create maxSize).Holds (.create maxSize) :=
  ⟨rfl, rfl, rfl⟩

private theorem tableSize (holds : memory.Holds dyn) (bound : dyn.tableSize < 2 ^ 64) :
    memory.tableSize = dyn.tableSize := by
  rw [holds.sized, holds.records, ← dyn.sized, Nat.mod_eq_of_lt bound]

private theorem sizes_lt (holds : memory.Holds dyn) (bound : dyn.tableSize < 2 ^ 64) :
    ∀ record ∈ memory.table.values, record.hpackSize < 2 ^ 64 := by
  intro record member
  rw [dyn.sized, ← holds.records] at bound
  exact Nat.lt_of_le_of_lt (hpackSize_le_totalSize member) bound

/-- Sizes that do not wrap evict the same records on both levels. -/
theorem shrinkTo (holds : memory.Holds dyn) (bound : dyn.tableSize < 2 ^ 64) (rqSize : Nat) :
    ∃ tableSize, memory.shrinkTo rqSize = .ok (dyn.shrinkTo rqSize, tableSize) ∧
      (memory.erase (dyn.shrinkTo rqSize) tableSize).Holds
        (dyn.eraseFrom (dyn.shrinkTo rqSize)) := by
  obtain ⟨kept, shrunk, same⟩ := shrinkTo_spec holds.sized rqSize
  have position : kept = dyn.shrinkTo rqSize := by
    rw [same (holds.sizes_lt bound), holds.records, holds.tableSize bound]
    rfl
  rw [position] at shrunk
  refine ⟨_, shrunk, sized_erase memory _, ?_, holds.maxSize⟩
  rw [erase, Arena.values_keep, holds.records, DynamicTable.eraseFrom_table]

private theorem insertImpl (holds : memory.Holds dyn) (name value : Bytes) :
    (memory.insertImpl name value).Holds (dyn.insertImpl name value) := by
  refine ⟨holds.sized.insertImpl name value, ?_, holds.maxSize⟩
  simp only [MemoryTable.insertImpl, Arena.values_pushFront, holds.records]
  rfl

/-- Every change does the same on both levels as long as the sizes do not wrap. -/
theorem change (holds : memory.Holds dyn) (change : TableChange)
    (bound : dyn.tableSize + change.entrySize < 2 ^ 64) :
    ∃ next, memory.change change = .ok next ∧ next.Holds (dyn.change change) := by
  cases change with
  | insert name value =>
      rw [TableChange.entrySize] at bound
      obtain ⟨tableSize, shrunk, kept⟩ := holds.shrinkTo (by omega)
        (if name.length + value.length + 32 + dyn.tableSize > dyn.hpackMaxSize then
          (dyn.hpackMaxSize + 2 ^ 64 - (name.length + value.length + 32)) % 2 ^ 64
        else name.length + value.length + 32 + dyn.tableSize)
      refine ⟨_, ?_, kept.insertImpl name value⟩
      simp only [MemoryTable.change, insert, holds.tableSize (show dyn.tableSize < 2 ^ 64 by omega),
        Nat.mod_eq_of_lt (show name.length + value.length + 32 < 2 ^ 64 by omega),
        Nat.mod_eq_of_lt (show name.length + value.length + 32 + dyn.tableSize < 2 ^ 64 by omega),
        holds.maxSize, shrunk, Outcome.ok_bind]
  | updateSize size =>
      obtain ⟨tableSize, shrunk, kept⟩ := holds.shrinkTo (Nat.lt_of_add_right_lt bound) size
      refine ⟨{ memory.erase (dyn.shrinkTo size) tableSize with hpackMaxSize := size }, ?_,
        ⟨kept.sized, kept.records, rfl⟩⟩
      simp only [MemoryTable.change, updateSize, shrunk, Outcome.ok_bind]

end Holds

end MemoryTable

/-- A table in memory holds the records and the index of a table without addresses. -/
structure Represents (memory : IndexedMemoryTable) (dyn : IndexedDynamicTable) : Prop where
  exact : memory.Exact dyn.indexSet
  holds : memory.Holds dyn.toDynamicTable

namespace Represents

variable {memory : IndexedMemoryTable} {dyn : IndexedDynamicTable}

private theorem create (maxSize : Nat) : Represents (.create maxSize) (.create maxSize) :=
  ⟨IndexedMemoryTable.Exact.create maxSize, MemoryTable.Holds.create maxSize⟩

/-- Sizes that do not wrap evict the same records on both levels. -/
theorem evict (represents : Represents memory dyn) (bound : dyn.tableSize < 2 ^ 64)
    (rqSize : Nat) :
    ∃ next, memory.evict rqSize = .ok next ∧
      Represents next (dyn.evictFrom (dyn.shrinkTo rqSize)) := by
  obtain ⟨exact, holds⟩ := represents
  obtain ⟨kept, next, evicted, after, values, maxSize, same⟩ := exact.evict rqSize
  have position : kept = dyn.shrinkTo rqSize := by
    rw [same (holds.sizes_lt bound), holds.records, holds.tableSize bound]
    rfl
  rw [position, holds.records] at after values
  exact ⟨next, evicted, after, after.sized, values, maxSize.trans holds.maxSize⟩

/-- Every change does the same on both levels as long as the sizes do not wrap. -/
theorem change (represents : Represents memory dyn) (change : TableChange)
    (bound : dyn.tableSize + change.entrySize < 2 ^ 64) :
    ∃ next, memory.change change = .ok next ∧ Represents next (dyn.change change) := by
  cases change with
  | insert name value =>
      rw [TableChange.entrySize] at bound
      obtain ⟨next, evicted, kept⟩ := represents.evict (by omega)
        (if name.length + value.length + 32 > dyn.hpackMaxSize then 0
          else dyn.hpackMaxSize - (name.length + value.length + 32))
      obtain ⟨set, inserted, exact⟩ := kept.exact.insertRecord name value
      refine ⟨⟨next.insertImpl name value, set⟩, ?_, ?_⟩
      · simp only [IndexedMemoryTable.change, IndexedMemoryTable.insert,
          Nat.mod_eq_of_lt (show name.length + value.length + 32 < 2 ^ 64 by omega),
          represents.holds.maxSize, evicted, Outcome.ok_bind, inserted]
      · rw [kept.holds.records] at exact
        exact ⟨exact, kept.holds.insertImpl name value⟩
  | updateSize size =>
      obtain ⟨next, evicted, ⟨exact, holds⟩⟩ :=
        represents.evict (Nat.lt_of_add_right_lt bound) size
      refine ⟨{ next with hpackMaxSize := size }, ?_,
        ⟨exact.sized, exact.numbered, exact.refers, exact.ordered⟩,
        ⟨holds.sized, holds.records, rfl⟩⟩
      simp only [IndexedMemoryTable.change, IndexedMemoryTable.updateSize, evicted,
        Outcome.ok_bind]

end Represents

/-- **Refinement.** In every run of changes whose sizes do not wrap, the tables in memory
hold the records and the index that the encoder's and the decoder's tables have without
addresses. -/
theorem memory_represents (initial : Nat) (changes : List TableChange)
    (encoder : ∀ position (inside : position < changes.length),
      (encoderTable initial (changes.take position)).tableSize + changes[position].entrySize <
        2 ^ 64)
    (decoder : ∀ position (inside : position < changes.length),
      (decoderTable initial (changes.take position)).tableSize + changes[position].entrySize <
        2 ^ 64) :
    (∃ memory, changes.foldlM IndexedMemoryTable.change (.create initial) = .ok memory ∧
        Represents memory (encoderTable initial changes)) ∧
      ∃ memory, changes.foldlM MemoryTable.change (.create initial) = .ok memory ∧
        memory.Holds (decoderTable initial changes) := by
  constructor
  · exact Outcome.foldlM_refines (fun _ _ change represents bound => represents.change change bound)
      (Represents.create initial) encoder
  · exact Outcome.foldlM_refines (fun _ _ change holds bound => holds.change change bound)
      (MemoryTable.Holds.create initial) decoder

end H2pp.Hpack

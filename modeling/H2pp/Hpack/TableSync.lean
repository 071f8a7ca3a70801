import H2pp.Hpack.HpackTable

/-! # The two dynamic tables of a session

The encoder's and the decoder's dynamic table change through separate code. They
hold the same entries, with one exception: for an entry larger than the whole
table the decoder's requested size wraps around and nothing is evicted, while the
encoder's table is emptied. The entry itself is at the front of both, so every
index the encoder can use means the same on both sides.
-/

namespace H2pp.Hpack

/-- The names and values of some records. -/
def entries (records : List Record) : List (Bytes × Bytes) :=
  records.map fun record => (record.name, record.value)

private theorem hpackSizes_of_entries {first second : List Record}
    (same : entries first = entries second) :
    first.map Record.hpackSize = second.map Record.hpackSize := by
  have sizes := congrArg (List.map fun entry : Bytes × Bytes =>
    entry.1.length + entry.2.length + 32) same
  simp only [entries, List.map_map] at sizes
  exact sizes

/-- The encoder's and the decoder's table agree, up to what is left in the
decoder's behind a record larger than the whole table. -/
structure InStep (encoder decoder : DynamicTable) : Prop where
  maxSize : encoder.hpackMaxSize = decoder.hpackMaxSize
  agree : entries encoder.table = entries decoder.table ∨
    ∃ large larger older, encoder.table = [large] ∧ decoder.table = larger :: older ∧
      (large.name, large.value) = (larger.name, larger.value) ∧
      encoder.hpackMaxSize < large.hpackSize

namespace InStep

variable {encoder decoder : DynamicTable}

private theorem entries_prefix (inStep : InStep encoder decoder) :
    entries encoder.table <+: entries decoder.table := by
  rcases inStep.agree with same | ⟨large, larger, older, single, more, equal, -⟩
  · exact same ▸ List.prefix_refl _
  · rw [single, more]
    exact ⟨entries older, by simp only [entries, List.map_cons, equal]; rfl⟩

private theorem atIndex_entries (dyn : DynamicTable) (index : Nat) (entry : Bytes × Bytes) :
    dyn.atIndex index = .ok entry ↔ (entries dyn.table)[index - 1]? = some entry := by
  rw [DynamicTable.atIndex, entries, List.getElem?_map]
  cases dyn.table[index - 1]? with
  | none => simp only [reduceCtorEq, Option.map_none]
  | some record => simp only [Except.ok.injEq, Option.map_some, Option.some.injEq]

/-- What the encoder finds at an index, the decoder finds there too. -/
theorem atIndex_eq (inStep : InStep encoder decoder) {index : Nat} {entry : Bytes × Bytes}
    (found : HpackTable.atIndex encoder index = .ok entry) :
    HpackTable.atIndex decoder index = .ok entry := by
  unfold HpackTable.atIndex at found ⊢
  split
  · rename_i zero
    rw [if_pos zero] at found
    cases found
  · rename_i positive
    rw [if_neg positive] at found
    split
    · rename_i static
      rw [if_pos static] at found
      exact found
    · rename_i dynamic
      rw [if_neg dynamic, atIndex_entries] at found
      rw [atIndex_entries]
      obtain ⟨rest, whole⟩ := inStep.entries_prefix
      rw [← whole, List.getElem?_append_left (List.getElem?_eq_some_iff.mp found).1]
      exact found

end InStep

namespace DynamicTable

private theorem tableSize_of_entries {first second : DynamicTable}
    (same : entries first.table = entries second.table) : first.tableSize = second.tableSize := by
  rw [first.sized, second.sized, totalSize, totalSize, hpackSizes_of_entries same]

/-- Only the sizes of the records decide how many of them stay. -/
theorem shrinkTo_of_entries {first second : DynamicTable} (rqSize : Nat)
    (same : entries first.table = entries second.table) :
    first.shrinkTo rqSize = second.shrinkTo rqSize := by
  have sizes := hpackSizes_of_entries same
  have lengths := congrArg List.length sizes
  rw [List.length_map, List.length_map] at lengths
  have reversed : first.table.reverse.map Record.hpackSize =
      second.table.reverse.map Record.hpackSize := by
    rw [List.map_reverse, List.map_reverse, sizes]
  rw [shrinkTo, shrinkTo, tableSize_of_entries same, lengths, evictionLoop_length _ reversed]

/-- Asking for less than the newest record alone empties the table. -/
theorem shrinkTo_eq_zero (dyn : DynamicTable) {rqSize : Nat} (bound : dyn.tableSize < 2 ^ 64)
    (less : ∀ newest ∈ dyn.table.head?, rqSize < newest.hpackSize) :
    dyn.shrinkTo rqSize = 0 := by
  have total := dyn.sized
  rw [shrinkTo]
  cases content : dyn.table with
  | nil =>
      rw [content, totalSize_nil] at total
      rw [if_pos (by omega), List.length_nil]
  | cons newest older =>
      rw [content, totalSize_cons] at total
      have small := less newest (by rw [content]; rfl)
      rw [if_neg (by omega), List.reverse_cons,
        evictionLoop_all older.reverse newest _ (by rw [totalSize_reverse]; omega) (by omega),
        List.length_nil]

/-- A new record stands in front of those that were not evicted. -/
theorem entries_insertImpl (dyn : DynamicTable) (name value : Bytes) (position : Nat) :
    entries ((dyn.eraseFrom position).insertImpl name value).table =
      (name, value) :: (entries dyn.table).take position := by
  simp only [insertImpl, eraseFrom_table, entries, List.map_cons, List.map_take]

variable {dyn : DynamicTable} {name value : Bytes}

/-- An entry that fits makes room for itself. -/
theorem insert_of_fits (fits : name.length + value.length + 32 ≤ dyn.hpackMaxSize)
    (bound : dyn.tableSize + (name.length + value.length + 32) < 2 ^ 63) :
    dyn.insert name value =
      (dyn.eraseFrom (dyn.shrinkTo
        (dyn.hpackMaxSize - (name.length + value.length + 32)))).insertImpl name value := by
  rw [insert]
  by_cases exceeds : name.length + value.length + 32 + dyn.tableSize > dyn.hpackMaxSize
  · rw [if_pos exceeds]
    rw [show (dyn.hpackMaxSize + 2 ^ 64 - (name.length + value.length + 32)) % 2 ^ 64 =
      dyn.hpackMaxSize - (name.length + value.length + 32) by omega]
  · rw [if_neg exceeds, shrinkTo, shrinkTo, if_pos (by omega), if_pos (by omega)]

/-- An entry larger than the whole table makes the requested size wrap around, and
nothing is evicted for it. -/
theorem insert_of_large (large : dyn.hpackMaxSize < name.length + value.length + 32)
    (bound : dyn.tableSize + (name.length + value.length + 32) < 2 ^ 63) :
    (dyn.insert name value).table = ⟨name, value, nextIndex dyn.table⟩ :: dyn.table := by
  have all : dyn.shrinkTo
      ((dyn.hpackMaxSize + 2 ^ 64 - (name.length + value.length + 32)) % 2 ^ 64) =
        dyn.table.length := by
    rw [shrinkTo, if_pos (by omega)]
  rw [insert, if_pos (by omega), all]
  simp only [insertImpl, eraseFrom_table, List.take_length]

end DynamicTable

/-- **The tables stay in step.** Inserting one entry on both sides keeps the
correspondence. An entry larger than the table empties the encoder's table and
leaves the decoder's as it is; the next entry that fits empties both. -/
theorem InStep.insert {encoder : IndexedDynamicTable} {decoder : DynamicTable}
    (inStep : InStep encoder.toDynamicTable decoder) (name value : Bytes)
    (bound : decoder.tableSize + (name.length + value.length + 32) < 2 ^ 63)
    (smaller : encoder.tableSize ≤ decoder.tableSize) :
    InStep (encoder.insert name value).toDynamicTable (decoder.insert name value) := by
  obtain ⟨maxSize, agree⟩ := inStep
  refine ⟨maxSize, ?_⟩
  by_cases large : encoder.hpackMaxSize < name.length + value.length + 32
  · have emptied : encoder.shrinkTo 0 = 0 :=
      encoder.shrinkTo_eq_zero (by omega) fun newest _ => hpackSize_pos newest
    have alone : (encoder.insert name value).table = [⟨name, value, 0⟩] := by
      simp only [IndexedDynamicTable.insert, gt_iff_lt, large, ↓reduceIte, emptied]
      rfl
    exact .inr ⟨_, _, decoder.table, alone,
      DynamicTable.insert_of_large (maxSize ▸ large) bound, rfl, large⟩
  · refine .inl ?_
    rw [DynamicTable.insert_of_fits (maxSize ▸ Nat.not_lt.mp large) bound,
      DynamicTable.entries_insertImpl]
    simp only [IndexedDynamicTable.insert, gt_iff_lt, large, ↓reduceIte]
    refine (DynamicTable.entries_insertImpl encoder.toDynamicTable name value _).trans ?_
    rcases agree with same | ⟨alone, larger, older, single, more, equal, exceeds⟩
    · rw [same, DynamicTable.shrinkTo_of_entries _ same, maxSize]
    · have sizes : larger.hpackSize = alone.hpackSize := by
        rw [Prod.mk.injEq] at equal
        rw [Record.hpackSize, Record.hpackSize, equal.1, equal.2]
      rw [encoder.shrinkTo_eq_zero (by omega), decoder.shrinkTo_eq_zero (by omega), List.take_zero,
        List.take_zero]
      · intro newest front
        rw [more] at front
        cases front
        omega
      · intro newest front
        rw [single] at front
        cases front
        omega

private theorem InStep.tableSize_le {encoder decoder : DynamicTable}
    (inStep : InStep encoder decoder) :
    encoder.tableSize ≤ decoder.tableSize := by
  rcases inStep.agree with same | ⟨large, larger, older, single, more, equal, -⟩
  · exact Nat.le_of_eq (DynamicTable.tableSize_of_entries same)
  · rw [Prod.mk.injEq] at equal
    rw [encoder.sized, decoder.sized, single, more, totalSize_cons, totalSize_cons,
      totalSize_nil, Record.hpackSize, Record.hpackSize, equal.1, equal.2]
    omega

/-- A record takes at least 32 bytes of the table. -/
theorem length_le_totalSize (records : List Record) : 32 * records.length ≤ totalSize records := by
  induction records with
  | nil => exact Nat.le_refl _
  | cons record records ih =>
      rw [List.length_cons, totalSize_cons, Record.hpackSize]
      omega

/-- After an insertion the encoder's table is not larger than its maximum size, or the
new entry, which is larger, is alone in it. -/
theorem IndexedDynamicTable.insert_compact (dyn : IndexedDynamicTable) (name value : Bytes)
    (bound : dyn.tableSize < 2 ^ 64) :
    (dyn.insert name value).tableSize ≤ dyn.hpackMaxSize ∨
      (dyn.insert name value).table.length = 1 ∧
        (dyn.insert name value).tableSize = name.length + value.length + 32 := by
  by_cases large : dyn.hpackMaxSize < name.length + value.length + 32
  · have emptied : dyn.shrinkTo 0 = 0 :=
      dyn.shrinkTo_eq_zero bound fun newest _ => hpackSize_pos newest
    have single : (dyn.insert name value).table = [⟨name, value, nextIndex []⟩] := by
      simp only [insert, gt_iff_lt, large, ↓reduceIte, emptied]
      rfl
    refine .inr ⟨by rw [single, List.length_singleton], ?_⟩
    rw [(dyn.insert name value).sized, single, totalSize_cons, totalSize_nil]
    rfl
  · refine .inl ?_
    have kept := dyn.eraseFrom_shrinkTo_tableSize
      (dyn.hpackMaxSize - (name.length + value.length + 32)) bound
    simp only [insert, gt_iff_lt, large, ↓reduceIte]
    change (dyn.eraseFrom _).tableSize + (name.length + value.length + 32) ≤ dyn.hpackMaxSize
    omega

/-- An encoder's table and a decoder's table of one session. All names in the
encoder's table are names of the static table, since only fields whose name is
indexed are ever inserted. -/
structure Linked (encoder : IndexedDynamicTable) (decoder : DynamicTable) : Prop where
  inStep : InStep encoder.toDynamicTable decoder
  maxSize : encoder.hpackMaxSize = 4096
  compact : encoder.tableSize ≤ 4096 ∨ encoder.table.length ≤ 1
  names : ∀ record ∈ encoder.table, StaticTable.Known record.name

namespace Linked

variable {encoder : IndexedDynamicTable} {decoder : DynamicTable}

/-- New tables are linked. -/
theorem create : Linked (.create 4096) (.create 4096) :=
  ⟨⟨rfl, .inl rfl⟩, rfl, .inl (by decide), fun _ none => nomatch none⟩

/-- A table of 4096 bytes has at most 128 records. -/
theorem length_le (linked : Linked encoder decoder) : encoder.table.length ≤ 128 := by
  have total := length_le_totalSize encoder.table
  rw [← encoder.sized] at total
  rcases linked.compact with small | single <;> omega

/-- An inserted field with a known name keeps the tables linked. -/
theorem insert (linked : Linked encoder decoder) {name value : Bytes}
    (known : StaticTable.Known name)
    (bound : decoder.tableSize + (name.length + value.length + 32) < 2 ^ 63) :
    Linked (encoder.insert name value) (decoder.insert name value) := by
  have smaller := linked.inStep.tableSize_le
  refine ⟨linked.inStep.insert name value bound smaller, linked.maxSize, ?_, ?_⟩
  · rcases encoder.insert_compact name value (by omega) with small | ⟨single, -⟩
    · exact .inl (linked.maxSize ▸ small)
    · exact .inr (Nat.le_of_eq single)
  · intro record member
    rcases List.mem_cons.mp member with rfl | old
    · exact known
    · exact linked.names record (List.mem_of_mem_take old)

end Linked

/-- An insertion adds at most the size of its entry. -/
theorem DynamicTable.insert_tableSize_le (dyn : DynamicTable) (name value : Bytes) :
    (dyn.insert name value).tableSize ≤ dyn.tableSize + (name.length + value.length + 32) := by
  change dyn.tableSize - _ + (name.length + value.length + 32) ≤ _
  omega

end H2pp.Hpack

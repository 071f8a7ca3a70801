import H2pp.Hpack.DynamicTable
import H2pp.Hpack.StaticTable

/-! # The tables of the encoder and the decoder

`hpack/indexed_dynamic_table.cpp` and `hpack/hpack_table.h`. The encoder's
dynamic table keeps an ordered index of its records. Both sides put the static
table in front of their dynamic table.
-/

namespace H2pp.Hpack

/-- Less by `std::vector` comparison. -/
def vectorLess : Bytes → Bytes → Bool
  | _, [] => false
  | [], _ :: _ => true
  | lhs :: lhsRest, rhs :: rhsRest => lhs < rhs || (lhs == rhs && vectorLess lhsRest rhsRest)

/-- The order on spans: by size first, then by content. -/
def spanCompare (lhs rhs : Bytes) : Ordering :=
  if lhs.length < rhs.length then .lt
  else if lhs.length > rhs.length then .gt
  else if lhs = rhs then .eq
  else if vectorLess lhs rhs then .lt
  else .gt

/-- The comparison tells different spans apart. -/
theorem spanCompare_eq_iff (lhs rhs : Bytes) : spanCompare lhs rhs = .eq ↔ lhs = rhs := by
  constructor
  · intro equal
    unfold spanCompare at equal
    split at equal
    · cases equal
    · split at equal
      · cases equal
      · split at equal
        · assumption
        · split at equal <;> cases equal
  · rintro rfl
    simp only [spanCompare, Nat.lt_irrefl, gt_iff_lt, ↓reduceIte]

/-- `index_comparator` on two records: the order of the set. -/
def recordLess (lhs rhs : Record) : Bool :=
  vectorLess lhs.name rhs.name || (lhs.name == rhs.name && vectorLess lhs.value rhs.value)

/-- `index_comparator` on a record and a name with a value. -/
def keyLess (name value : Bytes) (lhs : Record) : Bool :=
  match spanCompare lhs.name name with
  | .lt => true
  | .gt => false
  | .eq => spanCompare lhs.value value == .lt

/-- Equivalent under the order of the set. -/
def sameKey (lhs rhs : Record) : Bool := lhs.name == rhs.name && lhs.value == rhs.value

/-- `std::set::lower_bound` with a key of another type. The two orders of
`index_comparator` disagree, so the set need not be partitioned by the key and
then only the element found belongs to the set for certain. -/
structure LowerBound where
  search : List Record → (Record → Bool) → Option Record
  mem : ∀ {set less record}, search set less = some record → record ∈ set
  partitioned : ∀ {before after : List Record} {less : Record → Bool},
    (∀ record ∈ before, less record) → (∀ record ∈ after, less record = false) →
      search (before ++ after) less = after.head?

/-- A search from the front. -/
def LowerBound.linear : LowerBound where
  search := fun set less => set.find? fun record => !less record
  mem := List.mem_of_find?_eq_some
  partitioned := by
    intro before after less low high
    rw [List.find?_append, List.find?_eq_none.mpr (by simpa using low), Option.none_or]
    cases after with
    | nil => rfl
    | cons record after =>
        rw [List.find?_cons_of_pos (by simpa using high record (by simp)), List.head?_cons]

/-- `indexed_dynamic_table`: a dynamic table with an ordered index of its records. -/
structure IndexedDynamicTable extends DynamicTable where
  indexSet : List Record
  indexed : ∀ record ∈ indexSet, record ∈ table

namespace IndexedDynamicTable

/-- `indexed_dynamic_table(max_size)`. -/
def create (maxSize : Nat) : IndexedDynamicTable :=
  ⟨.create maxSize, [], fun _ none => nomatch none⟩

/-- `index_set.insert(&r)`: nothing happens when an equivalent record is there. -/
def insertIndex (record : Record) : List Record → List Record
  | [] => [record]
  | head :: set =>
      if sameKey record head then head :: set
      else if recordLess record head then record :: head :: set
      else head :: insertIndex record set

/-- `index_set.erase(&r)` for every evicted record. -/
def eraseIndex (evicted set : List Record) : List Record :=
  evicted.foldl (fun set record => set.filter fun entry => !sameKey record entry) set

/-- The set holds what it held before and the new record, or less. -/
theorem mem_insertIndex {record entry : Record} {set : List Record}
    (member : entry ∈ insertIndex record set) : entry = record ∨ entry ∈ set := by
  induction set with
  | nil => exact .inl (List.mem_singleton.mp member)
  | cons head set ih =>
      rw [insertIndex] at member
      split at member
      · exact .inr member
      · split at member
        · exact List.mem_cons.mp member
        · rcases List.mem_cons.mp member with here | later
          · exact .inr (List.mem_cons.mpr (.inl here))
          · exact (ih later).imp_right fun kept => List.mem_cons_of_mem head kept

/-- Evicted records leave the set, and nothing is added to it. -/
theorem mem_eraseIndex {evicted set : List Record} {entry : Record}
    (member : entry ∈ eraseIndex evicted set) : entry ∈ set ∧ entry ∉ evicted := by
  induction evicted generalizing set with
  | nil => exact ⟨member, List.not_mem_nil⟩
  | cons record evicted ih =>
      obtain ⟨kept, notLater⟩ := ih member
      obtain ⟨inSet, different⟩ := List.mem_filter.mp kept
      refine ⟨inSet, ?_⟩
      rw [List.mem_cons]
      rintro (rfl | later)
      · simp [sameKey] at different
      · exact notLater later

/-- Evict all records from a position on, in the table and in the index. -/
def evictFrom (dyn : IndexedDynamicTable) (position : Nat) : IndexedDynamicTable where
  toDynamicTable := dyn.eraseFrom position
  indexSet := eraseIndex (dyn.table.drop position) dyn.indexSet
  indexed := by
    intro record member
    obtain ⟨inSet, kept⟩ := mem_eraseIndex member
    have inTable := dyn.indexed record inSet
    rw [← List.take_append_drop position dyn.table] at inTable
    exact (List.mem_append.mp inTable).resolve_right kept

/-- `insert_impl` with `index_set.insert(&table.front())`. -/
def insertRecord (dyn : IndexedDynamicTable) (name value : Bytes) : IndexedDynamicTable where
  toDynamicTable := dyn.insertImpl name value
  indexSet := insertIndex ⟨name, value, nextIndex dyn.table⟩ dyn.indexSet
  indexed := by
    intro record member
    rcases mem_insertIndex member with rfl | old
    · exact List.mem_cons_self
    · exact List.mem_cons_of_mem _ (dyn.indexed record old)

/-- `indexed_dynamic_table::insert(name, value)`. -/
def insert (dyn : IndexedDynamicTable) (name value : Bytes) : IndexedDynamicTable :=
  let hsize := name.length + value.length + 32
  let rqSize := if hsize > dyn.hpackMaxSize then 0 else dyn.hpackMaxSize - hsize
  (dyn.evictFrom (dyn.shrinkTo rqSize)).insertRecord name value

/-- `indexed_dynamic_table::update_size(size)`. -/
def updateSize (dyn : IndexedDynamicTable) (size : Nat) : IndexedDynamicTable :=
  let kept := dyn.evictFrom (dyn.shrinkTo size)
  { kept with hpackMaxSize := size }

/-- `indexed_dynamic_table::field_index(name, value)`. -/
def fieldIndex (lowerBound : LowerBound) (dyn : IndexedDynamicTable) (name value : Bytes) :
    Int × Bool :=
  match lowerBound.search dyn.indexSet (keyLess name value) with
  | none => (-1, false)
  | some record =>
      if spanCompare record.name name = .eq then
        (dyn.recordIndex record, spanCompare record.value value = .eq)
      else (-1, false)

end IndexedDynamicTable

namespace HpackTable

/-- `hpack_table::at(i)`. -/
def atIndex (dyn : DynamicTable) (i : Nat) : Except Failure (Bytes × Bytes) :=
  if i = 0 then .error (.runtimeError "Invalid index value 0")
  else if i ≤ StaticTable.size then .ok (StaticTable.atIndex i)
  else dyn.atIndex (i - StaticTable.size)

/-- `hpack_table::field_index(name, value)`. The last result is an index into
the dynamic table alone. -/
def fieldIndex (lowerBound : LowerBound) (dyn : IndexedDynamicTable) (name value : Bytes) :
    Int × Bool :=
  let (i, hasValue) := StaticTable.fieldIndex name value
  if hasValue then (i, hasValue)
  else
    let (dynI, dynHasValue) := dyn.fieldIndex lowerBound name value
    if dynHasValue then (dynI + StaticTable.size, dynHasValue)
    else if i ≠ -1 then (i, hasValue)
    else (dynI, dynHasValue)

end HpackTable

/-- A lookup finds nothing, or the record of the table at which the search in the index
ends, if it has the name. -/
theorem IndexedDynamicTable.fieldIndex_search (lowerBound : LowerBound)
    (dyn : IndexedDynamicTable) (name value : Bytes) :
    dyn.fieldIndex lowerBound name value = (-1, false) ∨
      ∃ (position : Nat) (record : Record),
        lowerBound.search dyn.indexSet (keyLess name value) = some record ∧
          dyn.table[position]? = some record ∧ record.name = name ∧
            dyn.fieldIndex lowerBound name value =
              (dyn.recordIndex record, decide (record.value = value)) := by
  unfold fieldIndex
  cases search : lowerBound.search dyn.indexSet (keyLess name value) with
  | none => exact .inl rfl
  | some record =>
      simp only [spanCompare_eq_iff]
      by_cases same : record.name = name
      · obtain ⟨position, found⟩ :=
          List.getElem?_of_mem (dyn.indexed record (lowerBound.mem search))
        exact .inr ⟨position, record, rfl, found, same, if_pos same⟩
      · exact .inl (if_neg same)

/-- A record found through the index is the one at the index returned, and it has
the name looked for. -/
theorem IndexedDynamicTable.fieldIndex_cases (lowerBound : LowerBound)
    (dyn : IndexedDynamicTable) (name value : Bytes) (few : dyn.table.length < 2 ^ 31) :
    dyn.fieldIndex lowerBound name value = (-1, false) ∨
      ∃ (position : Nat) (record : Record) (hasValue : Bool),
        dyn.fieldIndex lowerBound name value = ((position : Int) + 1, hasValue) ∧
          dyn.table[position]? = some record ∧ record.name = name ∧
            (hasValue → record.value = value) := by
  rcases dyn.fieldIndex_search lowerBound name value with
    absent | ⟨position, record, -, found, same, result⟩
  · exact .inl absent
  · refine .inr ⟨position, record, _, ?_, found, same, of_decide_eq_true⟩
    rw [result, dyn.recordIndex_eq found few]

namespace HpackTable

/-- A name that neither the static table nor any record has is not found. -/
theorem fieldIndex_unknown (lowerBound : LowerBound) (dyn : IndexedDynamicTable) {name : Bytes}
    (few : dyn.table.length < 2 ^ 31) (names : ∀ record ∈ dyn.table, StaticTable.Known record.name)
    (unknown : ¬ StaticTable.Known name) (value : Bytes) :
    fieldIndex lowerBound dyn name value = (-1, false) := by
  rw [fieldIndex, StaticTable.fieldIndex_unknown unknown]
  rcases dyn.fieldIndex_cases lowerBound name value few with
    absent | ⟨position, record, hasValue, -, found, rfl, -⟩
  · simp only [absent, Bool.false_eq_true, ne_eq, not_true_eq_false, ↓reduceIte]
  · exact absurd (names record (List.mem_of_getElem? found)) unknown

/-- For a name of the static table, the index returned leads back to the name,
and to the value when it says so. -/
theorem fieldIndex_known (lowerBound : LowerBound) (dyn : IndexedDynamicTable) {name : Bytes}
    (few : dyn.table.length < 2 ^ 31) (known : StaticTable.Known name) (value : Bytes) :
    ∃ (index : Nat) (hasValue : Bool) (stored : Bytes),
      fieldIndex lowerBound dyn name value = ((index : Int), hasValue) ∧ 0 < index ∧
        index ≤ StaticTable.size + dyn.table.length ∧
        atIndex dyn.toDynamicTable index = .ok (name, stored) ∧
        (hasValue → stored = value) := by
  obtain ⟨row, bound, hasValue, static, rowName, rowValue⟩ :=
    StaticTable.fieldIndex_known known value
  have fromStatic : atIndex dyn.toDynamicTable (row + 1) =
      .ok (name, (StaticTable.atIndex (row + 1)).2) := by
    rw [atIndex, if_neg (Nat.succ_ne_zero row), if_pos (Nat.succ_le_of_lt bound), ← rowName]
  rw [fieldIndex, static]
  cases hasValue with
  | true =>
      exact ⟨row + 1, true, _, rfl, Nat.succ_pos row, by omega, fromStatic, rowValue⟩
  | false =>
      rcases dyn.fieldIndex_cases lowerBound name value few with
        absent | ⟨position, record, dynHasValue, dynamic, found, same, dynValue⟩
      · simp only [absent, Bool.false_eq_true, ↓reduceIte]
        rw [if_pos (by omega)]
        exact ⟨row + 1, false, _, rfl, Nat.succ_pos row, by omega, fromStatic, rowValue⟩
      · have inside : position < dyn.table.length := (List.getElem?_eq_some_iff.mp found).1
        cases dynHasValue with
        | true =>
            simp only [dynamic, Bool.false_eq_true, ↓reduceIte]
            refine ⟨StaticTable.size + (position + 1), true, record.value, ?_, by omega, by omega,
              ?_, fun _ => dynValue rfl⟩
            · push_cast
              rw [Int.add_comm]
            · rw [atIndex, if_neg (by omega), if_neg (by omega), Nat.add_sub_cancel_left,
                DynamicTable.atIndex_eq found, same]
        | false =>
            simp only [dynamic, Bool.false_eq_true, ↓reduceIte]
            rw [if_pos (by omega)]
            exact ⟨row + 1, false, _, rfl, Nat.succ_pos row, by omega, fromStatic, rowValue⟩

end HpackTable

end H2pp.Hpack

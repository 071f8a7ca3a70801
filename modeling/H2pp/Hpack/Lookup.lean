import H2pp.Hpack.HpackTable

/-! # What a lookup returns

`hpack_table::field_index` joins a lookup in the static table with one in the dynamic
table. An index of the dynamic table counts on from the static table only where the
value was found as well, so a record found by its name alone is given the index of
another entry.
-/

namespace H2pp.Hpack

namespace IndexedDynamicTable

variable {lowerBound : LowerBound} {dyn : IndexedDynamicTable} {name value : Bytes}

/-- The search in the index ends at this record of the table, which has the name. -/
structure Stops (lowerBound : LowerBound) (dyn : IndexedDynamicTable) (name value : Bytes)
    (position : Nat) (record : Record) : Prop where
  search : lowerBound.search dyn.indexSet (keyLess name value) = some record
  found : dyn.table[position]? = some record
  name : record.name = name

private theorem Stops.fieldIndex {position : Nat} {record : Record}
    (stops : Stops lowerBound dyn name value position record) :
    dyn.fieldIndex lowerBound name value =
      (dyn.recordIndex record, decide (record.value = value)) := by
  simp only [IndexedDynamicTable.fieldIndex, stops.search, stops.name, spanCompare_eq_iff,
    ↓reduceIte]

/-- A search that stops at no record with the name finds nothing. -/
theorem fieldIndex_of_not_stops
    (nowhere : ∀ position record, ¬ Stops lowerBound dyn name value position record) :
    dyn.fieldIndex lowerBound name value = (-1, false) := by
  rcases dyn.fieldIndex_search lowerBound name value with
    absent | ⟨position, record, search, found, same, -⟩
  · exact absent
  · exact absurd ⟨search, found, same⟩ (nowhere position record)

end IndexedDynamicTable

namespace HpackTable

open IndexedDynamicTable (Stops)

variable {lowerBound : LowerBound} {dyn : IndexedDynamicTable} {name value : Bytes}

/-- The result of a lookup means what it says: unless it is -1, `at`, whose argument is a
`size_t`, gives an entry with the name, and with the value if the lookup has found it. -/
def Meant (dyn : DynamicTable) (name value : Bytes) (result : Int × Bool) : Prop :=
  result.1 ≠ -1 →
    ∃ stored, atIndex dyn (result.1 % 2 ^ 64).toNat = .ok (name, stored) ∧
      (result.2 → stored = value)

/-- The static table has the field; or the record with the name at which the search in
the dynamic table ends, if any, has an index that is an `int`, and it has the value, or
its name is in the static table, or the entry as many places before it as the static
table has rows has the same name. -/
def Addressed (lowerBound : LowerBound) (dyn : IndexedDynamicTable) (name value : Bytes) : Prop :=
  (StaticTable.fieldIndex name value).2 = true ∨
    ∀ position record, Stops lowerBound dyn name value position record →
      position + 1 + StaticTable.size < 2 ^ 31 ∧
        (record.value = value ∨ StaticTable.Known name ∨
          StaticTable.size ≤ position ∧
            dyn.table[position - StaticTable.size]?.map Record.name = some name)

private theorem meant_absent {hasValue : Bool} :
    Meant dyn.toDynamicTable name value (-1, hasValue) :=
  fun present => absurd rfl present

/-- An index that is an `int` is passed to `at` as it is. -/
theorem meant_index_iff {index : Nat} {hasValue : Bool} (small : index < 2 ^ 31) :
    Meant dyn.toDynamicTable name value ((index : Int), hasValue) ↔
      ∃ stored, atIndex dyn.toDynamicTable index = .ok (name, stored) ∧
        (hasValue → stored = value) := by
  have passed : ((index : Int) % 2 ^ 64).toNat = index := by omega
  simp only [Meant, passed]
  exact ⟨fun meant => meant (by omega), fun meant _ => meant⟩

/-- The index of a row of the static table. -/
theorem meant_row {row : Nat} {hasValue : Bool} (inside : row < StaticTable.size)
    (named : (StaticTable.atIndex (row + 1)).1 = name)
    (valued : hasValue → (StaticTable.atIndex (row + 1)).2 = value) :
    Meant dyn.toDynamicTable name value (((row + 1 : Nat) : Int), hasValue) := by
  have few : StaticTable.size < 2 ^ 31 := by decide
  refine (meant_index_iff (by omega)).mpr ⟨(StaticTable.atIndex (row + 1)).2, ?_, valued⟩
  rw [atIndex, if_neg (Nat.succ_ne_zero row), if_pos (Nat.succ_le_of_lt inside), ← named]

/-- The index of a record, counted on from the static table. -/
theorem meant_record {position : Nat} {record : Record}
    (found : dyn.table[position]? = some record)
    (small : position + 1 + StaticTable.size < 2 ^ 31) :
    Meant dyn.toDynamicTable record.name record.value
      (((position + 1 + StaticTable.size : Nat) : Int), true) := by
  refine (meant_index_iff small).mpr ⟨record.value, ?_, fun _ => rfl⟩
  rw [atIndex, if_neg (by omega), if_neg (by omega), Nat.add_sub_cancel,
    DynamicTable.atIndex_eq found]

/-- The index of a record that is not counted on from the static table. It leads to a
row, which has another name, or to an entry inserted later. -/
theorem meant_bare_iff {position : Nat} (unknown : ¬ StaticTable.Known name)
    (small : position + 1 < 2 ^ 31) :
    Meant dyn.toDynamicTable name value (((position + 1 : Nat) : Int), false) ↔
      StaticTable.size ≤ position ∧
        dyn.table[position - StaticTable.size]?.map Record.name = some name := by
  rw [meant_index_iff small, atIndex, if_neg (Nat.succ_ne_zero position)]
  by_cases row : position + 1 ≤ StaticTable.size
  · rw [if_pos row]
    constructor
    · rintro ⟨stored, same, -⟩
      have named : (StaticTable.atIndex (position + 1)).1 = name :=
        congrArg Prod.fst (Except.ok.inj same)
      exact absurd (StaticTable.row_of_name row named).1 unknown
    · rintro ⟨later, -⟩
      omega
  · have later : StaticTable.size ≤ position := by omega
    rw [if_neg row, DynamicTable.atIndex, Nat.sub_right_comm, Nat.add_sub_cancel]
    cases dyn.table[position - StaticTable.size]? with
    | none => simp
    | some newer => simp [later]

/-- A lookup that the static table answers alone. -/
theorem meant_static (hit : (StaticTable.fieldIndex name value).2 = true) :
    Meant dyn.toDynamicTable name value (fieldIndex lowerBound dyn name value) := by
  have known : StaticTable.Known name := by
    by_contra unknown
    rw [StaticTable.fieldIndex_unknown unknown] at hit
    cases hit
  obtain ⟨row, inside, hasValue, static, named, valued⟩ :=
    StaticTable.fieldIndex_known known value
  rw [static] at hit
  cases hit
  rw [fieldIndex, static]
  exact meant_row inside named valued

/-- What is returned when the static lookup has not found the value. -/
theorem fieldIndex_of_miss (miss : (StaticTable.fieldIndex name value).2 = false) :
    fieldIndex lowerBound dyn name value =
      if (dyn.fieldIndex lowerBound name value).2 then
        ((dyn.fieldIndex lowerBound name value).1 + StaticTable.size, true)
      else if (StaticTable.fieldIndex name value).1 ≠ -1 then
        ((StaticTable.fieldIndex name value).1, false)
      else ((dyn.fieldIndex lowerBound name value).1, false) := by
  simp only [fieldIndex, miss, Bool.false_eq_true, ↓reduceIte]
  cases (dyn.fieldIndex lowerBound name value).2 <;> rfl

/-- A static lookup that has found the name alone decides, unless the dynamic table has
the value. -/
theorem meant_known (known : StaticTable.Known name)
    (miss : (StaticTable.fieldIndex name value).2 = false) :
    (StaticTable.fieldIndex name value).1 ≠ -1 ∧
      Meant dyn.toDynamicTable name value ((StaticTable.fieldIndex name value).1, false) := by
  obtain ⟨row, inside, hasValue, static, named, valued⟩ :=
    StaticTable.fieldIndex_known known value
  rw [static] at miss ⊢
  cases miss
  exact ⟨by simp only; omega, meant_row inside named valued⟩

private theorem meant_of_not_stops (miss : (StaticTable.fieldIndex name value).2 = false)
    (nowhere : ∀ position record, ¬ Stops lowerBound dyn name value position record) :
    Meant dyn.toDynamicTable name value (fieldIndex lowerBound dyn name value) := by
  rw [fieldIndex_of_miss miss, IndexedDynamicTable.fieldIndex_of_not_stops nowhere, if_neg nofun]
  by_cases known : StaticTable.Known name
  · obtain ⟨present, meant⟩ := @meant_known dyn _ _ known miss
    rw [if_pos present]
    exact meant
  · rw [StaticTable.fieldIndex_unknown known, if_neg (fun different => different rfl)]
    exact meant_absent

/-- What the result means when the search ends at a record with the name. -/
theorem meant_of_stops_iff (miss : (StaticTable.fieldIndex name value).2 = false)
    {position : Nat} {record : Record} (stops : Stops lowerBound dyn name value position record)
    (small : position + 1 + StaticTable.size < 2 ^ 31) :
    Meant dyn.toDynamicTable name value (fieldIndex lowerBound dyn name value) ↔
      record.value = value ∨ StaticTable.Known name ∨
        StaticTable.size ≤ position ∧
          dyn.table[position - StaticTable.size]?.map Record.name = some name := by
  rw [fieldIndex_of_miss miss, stops.fieldIndex,
    dyn.recordIndex_of_lt stops.found (Nat.lt_of_le_of_lt (Nat.le_add_right _ _) small)]
  by_cases same : record.value = value
  · rw [if_pos (decide_eq_true same)]
    refine iff_of_true ?_ (.inl same)
    have meant := meant_record stops.found small
    rw [stops.name, same] at meant
    exact meant
  · rw [if_neg (by simpa using same), or_iff_right same]
    by_cases known : StaticTable.Known name
    · obtain ⟨present, meant⟩ := @meant_known dyn _ _ known miss
      rw [if_pos present]
      exact iff_of_true meant (.inl known)
    · rw [StaticTable.fieldIndex_unknown known, if_neg (fun different => different rfl),
        or_iff_right known]
      exact meant_bare_iff known (Nat.lt_of_le_of_lt (Nat.le_add_right _ _) small)

/-- **The index of a lookup.** A lookup in the encoder's tables returns -1 or an index
that means what it says, if the record it ends at is addressed by it. For every table
whose entries can be numbered by an `int`, it does so in no other case. -/
theorem fieldIndex_meant_iff (lowerBound : LowerBound) (dyn : IndexedDynamicTable)
    (name value : Bytes) :
    (Addressed lowerBound dyn name value →
        Meant dyn.toDynamicTable name value (fieldIndex lowerBound dyn name value)) ∧
      (dyn.table.length + StaticTable.size < 2 ^ 31 →
        Meant dyn.toDynamicTable name value (fieldIndex lowerBound dyn name value) →
          Addressed lowerBound dyn name value) := by
  cases hit : (StaticTable.fieldIndex name value).2 with
  | true => exact ⟨fun _ => meant_static hit, fun _ _ => .inl hit⟩
  | false =>
      constructor
      · intro addressed
        have stopped := addressed.resolve_left (by rw [hit]; nofun)
        by_cases somewhere : ∃ position record, Stops lowerBound dyn name value position record
        · obtain ⟨position, record, stops⟩ := somewhere
          obtain ⟨small, reason⟩ := stopped position record stops
          exact (meant_of_stops_iff hit stops small).mpr reason
        · exact meant_of_not_stops hit fun position record stops =>
            somewhere ⟨position, record, stops⟩
      · intro few meant
        refine .inr fun position record stops => ?_
        have inside : position < dyn.table.length := (List.getElem?_eq_some_iff.mp stops.found).1
        have small : position + 1 + StaticTable.size < 2 ^ 31 := by omega
        exact ⟨small, (meant_of_stops_iff hit stops small).mp meant⟩

/-- A table with the one field `x: 2`. -/
def oneField : IndexedDynamicTable := (IndexedDynamicTable.create 4096).insert [120] [50]

/-- The field itself has the index that follows the static table. -/
theorem fieldIndex_meant_stored :
    fieldIndex .linear oneField [120] [50] = (62, true) ∧
      Meant oneField.toDynamicTable [120] [50] (fieldIndex .linear oneField [120] [50]) :=
  ⟨by decide, (fieldIndex_meant_iff .linear oneField [120] [50]).1 (.inr (by
    intro position record stops
    have inside : position < 1 := (List.getElem?_eq_some_iff.mp stops.found).1
    obtain rfl : position = 0 := by omega
    have newest := stops.found
    cases newest
    exact ⟨by decide, .inl rfl⟩))⟩

/-- With a smaller value, the name is given the index of `:authority`. -/
theorem fieldIndex_smaller_value :
    fieldIndex .linear oneField [120] [49] = (1, false) ∧
      ¬ Meant oneField.toDynamicTable [120] [49] (fieldIndex .linear oneField [120] [49]) := by
  refine ⟨by decide, fun meant => ?_⟩
  obtain ⟨stored, found, -⟩ := meant (by decide)
  have authority : atIndex oneField.toDynamicTable
      ((fieldIndex .linear oneField [120] [49]).1 % 2 ^ 64).toNat = .ok (ascii ":authority", []) := by
    decide
  rw [authority] at found
  have named : ascii ":authority" = [120] := congrArg Prod.fst (Except.ok.inj found)
  exact absurd named (by decide)

end HpackTable

end H2pp.Hpack

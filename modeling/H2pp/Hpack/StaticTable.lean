import H2pp.Error
import H2pp.Lib.Outcome

/-! # The static table

`hpack/static_table.cpp`. A name is looked up through a perfect hash of three of
its bytes, which leads to the range of table rows with that name.
-/

namespace H2pp.Hpack.StaticTable

/-- `field_table`. -/
def fieldTable : List (Bytes × Bytes) := [
    (ascii ":authority", ascii ""), (ascii ":method", ascii "GET"),
    (ascii ":method", ascii "POST"), (ascii ":path", ascii "/"),
    (ascii ":path", ascii "/index.html"), (ascii ":scheme", ascii "http"),
    (ascii ":scheme", ascii "https"), (ascii ":status", ascii "200"),
    (ascii ":status", ascii "204"), (ascii ":status", ascii "206"),
    (ascii ":status", ascii "304"), (ascii ":status", ascii "400"),
    (ascii ":status", ascii "404"), (ascii ":status", ascii "500"),
    (ascii "accept-charset", ascii ""), (ascii "accept-encoding", ascii "gzip, deflate"),
    (ascii "accept-language", ascii ""), (ascii "accept-ranges", ascii ""),
    (ascii "accept", ascii ""), (ascii "access-control-allow-origin", ascii ""),
    (ascii "age", ascii ""), (ascii "allow", ascii ""), (ascii "authorization", ascii ""),
    (ascii "cache-control", ascii ""), (ascii "content-disposition", ascii ""),
    (ascii "content-encoding", ascii ""), (ascii "content-language", ascii ""),
    (ascii "content-length", ascii ""), (ascii "content-location", ascii ""),
    (ascii "content-range", ascii ""), (ascii "content-type", ascii ""),
    (ascii "cookie", ascii ""), (ascii "date", ascii ""), (ascii "etag", ascii ""),
    (ascii "expect", ascii ""), (ascii "expires", ascii ""), (ascii "from", ascii ""),
    (ascii "host", ascii ""), (ascii "if-match", ascii ""),
    (ascii "if-modified-since", ascii ""), (ascii "if-none-match", ascii ""),
    (ascii "if-range", ascii ""), (ascii "if-unmodified-since", ascii ""),
    (ascii "last-modified", ascii ""), (ascii "link", ascii ""), (ascii "location", ascii ""),
    (ascii "max-forwards", ascii ""), (ascii "proxy-authenticate", ascii ""),
    (ascii "proxy-authorization", ascii ""), (ascii "range", ascii ""),
    (ascii "referer", ascii ""), (ascii "refresh", ascii ""), (ascii "retry-after", ascii ""),
    (ascii "server", ascii ""), (ascii "set-cookie", ascii ""),
    (ascii "strict-transport-security", ascii ""), (ascii "transfer-encoding", ascii ""),
    (ascii "user-agent", ascii ""), (ascii "vary", ascii ""), (ascii "via", ascii ""),
    (ascii "www-authenticate", ascii "")]

/-- `asso_values`. -/
def assoValues : List Nat := [
    66, 66, 66, 66, 66, 66, 66, 66, 66, 66, 66, 66, 66, 66, 66, 66, 66, 66, 66, 66, 66, 66, 66,
    66, 66, 66, 66, 66, 66, 66, 66, 66, 66, 66, 66, 66, 66, 66, 66, 66, 66, 66, 66, 66, 66, 10,
    66, 66, 66, 66, 66, 66, 66, 66, 66, 66, 66, 66, 15, 66, 66, 66, 66, 66, 66, 66, 66, 66, 66,
    66, 66, 66, 66, 66, 66, 66, 66, 66, 66, 66, 66, 66, 66, 66, 66, 66, 66, 66, 66, 66, 66, 66,
    66, 66, 66, 66, 66, 1, 66, 8, 13, 2, 41, 15, 5, 19, 66, 23, 2, 4, 12, 32, 20, 66, 3, 21, 1,
    23, 17, 32, 20, 14, 66, 66, 66, 66, 66, 66, 66, 66, 66, 66, 66, 66, 66, 66, 66, 66, 66, 66,
    66, 66, 66, 66, 66, 66, 66, 66, 66, 66, 66, 66, 66, 66, 66, 66, 66, 66, 66, 66, 66, 66, 66,
    66, 66, 66, 66, 66, 66, 66, 66, 66, 66, 66, 66, 66, 66, 66, 66, 66, 66, 66, 66, 66, 66, 66,
    66, 66, 66, 66, 66, 66, 66, 66, 66, 66, 66, 66, 66, 66, 66, 66, 66, 66, 66, 66, 66, 66, 66,
    66, 66, 66, 66, 66, 66, 66, 66, 66, 66, 66, 66, 66, 66, 66, 66, 66, 66, 66, 66, 66, 66, 66,
    66, 66, 66, 66, 66, 66, 66, 66, 66, 66, 66, 66, 66, 66, 66, 66, 66, 66, 66, 66, 66, 66, 66,
    66]

/-- `lengthtable`. -/
def lengthtable : List Nat := [
    0, 0, 0, 3, 6, 6, 15, 4, 7, 14, 11, 7, 12, 16, 13, 8, 14, 4, 3, 13, 5, 5, 7, 16, 8, 13, 16,
    13, 8, 7, 15, 10, 4, 6, 19, 13, 12, 7, 17, 10, 13, 6, 7, 18, 17, 4, 16, 27, 4, 4, 0, 0, 10,
    19, 0, 0, 0, 25, 0, 0, 0, 0, 0, 19, 0, 5]

/-- `wordlist`: the first and the last row with a name. -/
def wordlist : List (Int × Int) := [
    (-1, -1), (-1, -1), (-1, -1), (20, 20), (18, 18), (34, 34), (16, 16), (37, 37), (50, 50),
    (14, 14), (52, 52), (51, 51), (30, 30), (26, 26), (29, 29), (45, 45), (27, 27), (32, 32),
    (59, 59), (22, 22), (49, 49), (3, 4), (5, 6), (28, 28), (41, 41), (17, 17), (25, 25),
    (23, 23), (38, 38), (1, 2), (15, 15), (0, 0), (33, 33), (31, 31), (24, 24), (43, 43),
    (46, 46), (7, 13), (56, 56), (57, 57), (40, 40), (53, 53), (35, 35), (47, 47), (39, 39),
    (58, 58), (60, 60), (19, 19), (44, 44), (36, 36), (-1, -1), (-1, -1), (54, 54), (48, 48),
    (-1, -1), (-1, -1), (-1, -1), (55, 55), (-1, -1), (-1, -1), (-1, -1), (-1, -1), (-1, -1),
    (42, 42), (-1, -1), (21, 21)]

/-- `size()`. -/
def size : Nat := fieldTable.length

/-- `at(index)`, for an index of the table. -/
def atIndex (index : Nat) : Bytes × Bytes := fieldTable.getD (index - 1) ([], [])

/-- `asso_values[str[position]]`. -/
def assoValue (name : Bytes) (position : Nat) : Nat :=
  assoValues.getD (name.getD position 0).toNat 0

/-- The hash of a name: the bytes 8, 3 and 0, as far as it has them, and the
last one. -/
def hashKey (name : Bytes) : Nat :=
  let hval := (if name.length > 8 then assoValue name 8 else 0) +
    (if name.length > 3 then assoValue name 3 else 0) + assoValue name 0
  hval + assoValue name (name.length - 1)

/-- `index(name)`: the rows the hash of `name` points to. -/
def index (name : Bytes) : Int × Int :=
  if name.length < 3 ∨ name.length > 27 then (-1, -1)
  else
    let key := hashKey name
    if key ≤ 65 ∧ name.length = lengthtable.getD key 0 then wordlist.getD key (-1, -1)
    else (-1, -1)

/-- The comparison of a table string with a span: `memcmp` over the length of
the span. -/
def sameBytes (lhs rhs : Bytes) : Bool := lhs.take rhs.length = rhs

/-- `std::find_if` over rows `start` to `end` for a value. -/
def findValue (value : Bytes) : Nat → Nat → Option Nat
  | _, 0 => none
  | row, count + 1 =>
      let field := atIndex (row + 1)
      if field.2.length = value.length ∧ sameBytes field.2 value then some row
      else findValue value (row + 1) count

/-- `field_index(name, value)`: the index of a row with the name, and whether it
has the value. -/
def fieldIndex (name value : Bytes) : Int × Bool :=
  let (start, last) := index name
  if start < 0 ∨ ¬ sameBytes (atIndex (start.toNat + 1)).1 name then (-1, false)
  else
    match findValue value start.toNat (last.toNat + 1 - start.toNat) with
    | some row => (1 + row, true)
    | none => (start + 1, false)

/-- The name has rows in the table. -/
def Known (name : Bytes) : Prop :=
  0 ≤ (index name).1 ∧ sameBytes (atIndex ((index name).1.toNat + 1)).1 name

instance (name : Bytes) : Decidable (Known name) := inferInstanceAs (Decidable (_ ∧ _))

/-- Rows `first` to `last` of the table all have one name, of `length` bytes. -/
def OneName (first last : Int) (length : Nat) : Prop :=
  first ≤ last ∧ last.toNat < size ∧
    ∀ row < size, first.toNat ≤ row ∧ row ≤ last.toNat →
      (atIndex (row + 1)).1 = (atIndex (first.toNat + 1)).1 ∧
        (atIndex (row + 1)).1.length = length

instance (first last : Int) (length : Nat) : Decidable (OneName first last length) :=
  inferInstanceAs (Decidable (_ ∧ _ ∧ _))

private theorem oneName_of_key : ∀ key < 66, 0 ≤ (wordlist.getD key (-1, -1)).1 →
    OneName (wordlist.getD key (-1, -1)).1 (wordlist.getD key (-1, -1)).2
      (lengthtable.getD key 0) := by
  decide +kernel

/-- Where the hash points to rows, they are rows with names of that length. -/
theorem oneName_of_index {name : Bytes} (found : 0 ≤ (index name).1) :
    OneName (index name).1 (index name).2 name.length := by
  by_cases sized : name.length < 3 ∨ name.length > 27
  · rw [index, if_pos sized] at found
    exact absurd found (by decide)
  · by_cases key : hashKey name ≤ 65 ∧ name.length = lengthtable.getD (hashKey name) 0
    · have range : index name = wordlist.getD (hashKey name) (-1, -1) := by
        simp only [index, if_neg sized, if_pos key]
      rw [range] at found ⊢
      rw [key.2]
      exact oneName_of_key _ (by omega) found
    · simp only [index, if_neg sized, if_neg key] at found
      exact absurd found (by decide)

/-- The rows of a known name are rows with exactly that name. -/
theorem rows_of_known {name : Bytes} (known : Known name) :
    (index name).1 ≤ (index name).2 ∧ (index name).2.toNat < size ∧
      ∀ row, (index name).1.toNat ≤ row → row ≤ (index name).2.toNat →
        (atIndex (row + 1)).1 = name := by
  obtain ⟨found, same⟩ := known
  obtain ⟨ordered, bound, rows⟩ := oneName_of_index found
  refine ⟨ordered, bound, ?_⟩
  intro row lower upper
  obtain ⟨equal, -⟩ := rows row (by omega) ⟨lower, upper⟩
  obtain ⟨-, length⟩ := rows _ (by omega) ⟨Nat.le_refl _, by omega⟩
  simp only [sameBytes, decide_eq_true_eq] at same
  rw [List.take_of_length_le (Nat.le_of_eq length)] at same
  rw [equal, same]

private theorem findValue_some {value : Bytes} {start count row : Nat}
    (found : findValue value start count = some row) :
    start ≤ row ∧ row < start + count ∧ (atIndex (row + 1)).2 = value := by
  induction count generalizing start with
  | zero => cases found
  | succ count ih =>
      rw [findValue] at found
      split at found
      · rename_i same
        cases found
        simp only [sameBytes, decide_eq_true_eq] at same
        obtain ⟨length, bytes⟩ := same
        rw [List.take_of_length_le (Nat.le_of_eq length)] at bytes
        exact ⟨Nat.le_refl _, by omega, bytes⟩
      · obtain ⟨lower, upper, value⟩ := ih found
        exact ⟨by omega, by omega, value⟩

/-- For a known name `field_index` searches the rows of the name for the value. -/
theorem fieldIndex_of_known {name : Bytes} (known : Known name) (value : Bytes) :
    fieldIndex name value =
      match findValue value (index name).1.toNat
        ((index name).2.toNat + 1 - (index name).1.toNat) with
      | some row => (1 + row, true)
      | none => ((index name).1 + 1, false) := by
  obtain ⟨found, same⟩ := known
  have taken : ¬ ((index name).1 < 0 ∨
      ¬ sameBytes (atIndex ((index name).1.toNat + 1)).1 name) := by
    rintro (negative | different)
    · omega
    · exact different same
  simp only [fieldIndex, if_neg taken]

/-- What `field_index` returns for a known name is the index of a row with that
name, and with the value when it says so. -/
theorem fieldIndex_known {name : Bytes} (known : Known name) (value : Bytes) :
    ∃ row < size, ∃ hasValue, fieldIndex name value = ((row : Int) + 1, hasValue) ∧
      (atIndex (row + 1)).1 = name ∧ (hasValue → (atIndex (row + 1)).2 = value) := by
  obtain ⟨ordered, bound, rows⟩ := rows_of_known known
  have found := known.1
  rw [fieldIndex_of_known known]
  cases search : findValue value (index name).1.toNat
      ((index name).2.toNat + 1 - (index name).1.toNat) with
  | some row =>
      obtain ⟨lower, upper, hasValue⟩ := findValue_some search
      exact ⟨row, by omega, true, by simp only [Int.add_comm], rows row lower (by omega),
        fun _ => hasValue⟩
  | none =>
      refine ⟨(index name).1.toNat, by omega, false, ?_, rows _ (Nat.le_refl _) (by omega),
        fun absent => nomatch absent⟩
      rw [Int.toNat_of_nonneg found]

/-- A name that the table does not have is not found. -/
theorem fieldIndex_unknown {name : Bytes} (unknown : ¬ Known name) (value : Bytes) :
    fieldIndex name value = (-1, false) := by
  have absent : (index name).1 < 0 ∨
      ¬ sameBytes (atIndex ((index name).1.toNat + 1)).1 name := by
    by_cases found : 0 ≤ (index name).1
    · exact .inr fun same => unknown ⟨found, same⟩
    · exact .inl (by omega)
  simp only [fieldIndex, if_pos absent]

/-! ## Accesses -/

/-- An access of an array, which is not defined outside of it. -/
def access {Entry : Type} (array : List Entry) (position : Nat) : Except Failure Entry :=
  match array[position]? with
  | some entry => .ok entry
  | none => .error .undefinedBehaviour

/-- `asso_values[str[position]]`, with both accesses. -/
def checkedAssoValue (name : Bytes) (position : Nat) : Except Failure Nat := do
  let byte ← access name position
  access assoValues byte.toNat

/-- A case of the `switch` over the size of a name. -/
def checkedCase (name : Bytes) (position : Nat) : Except Failure Nat :=
  if name.length > position then checkedAssoValue name position else .ok 0

/-- The hash of a name, with the accesses it makes. -/
def checkedHashKey (name : Bytes) : Except Failure Nat := do
  let eighth ← checkedCase name 8
  let third ← checkedCase name 3
  let first ← checkedAssoValue name 0
  let last ← checkedAssoValue name (name.length - 1)
  .ok (eighth + third + first + last)

/-- `index(name)`, with its accesses. -/
def checkedIndex (name : Bytes) : Except Failure (Int × Int) :=
  if name.length < 3 ∨ name.length > 27 then .ok (-1, -1)
  else do
    let key ← checkedHashKey name
    if key ≤ 65 then do
      let length ← access lengthtable key
      if name.length = length then access wordlist key else .ok (-1, -1)
    else .ok (-1, -1)

/-- `memcmp` of a table string with a span, which reads as many bytes of both. -/
def checkedSameBytes (lhs rhs : Bytes) : Except Failure Bool :=
  if rhs.length ≤ lhs.length then .ok (sameBytes lhs rhs) else .error .undefinedBehaviour

/-- `std::find_if` over rows for a value, with its accesses. -/
def checkedFindValue (value : Bytes) : Nat → Nat → Except Failure (Option Nat)
  | _, 0 => .ok none
  | row, count + 1 => do
      let field ← access fieldTable row
      let same ← (
        if field.2.length = value.length then checkedSameBytes field.2 value
        else .ok false : Except Failure Bool)
      if same then .ok (some row) else checkedFindValue value (row + 1) count

/-- `field_index(name, value)`, with its accesses. -/
def checkedFieldIndex (name value : Bytes) : Except Failure (Int × Bool) := do
  let (start, last) ← checkedIndex name
  if start < 0 then .ok (-1, false)
  else do
    let field ← access fieldTable start.toNat
    let same ← checkedSameBytes field.1 name
    if !same then .ok (-1, false)
    else
      match ← checkedFindValue value start.toNat (last.toNat + 1 - start.toNat) with
      | some row => .ok (1 + row, true)
      | none => .ok (start + 1, false)

/-- An access inside an array. -/
theorem access_of_lt {Entry : Type} {array : List Entry} {position : Nat} (default : Entry)
    (inside : position < array.length) :
    access array position = .ok (array.getD position default) := by
  rw [access, List.getD_eq_getElem?_getD, List.getElem?_eq_getElem inside, Option.getD_some]

private theorem checkedAssoValue_eq {name : Bytes} {position : Nat}
    (inside : position < name.length) :
    checkedAssoValue name position = .ok (assoValue name position) := by
  have values : assoValues.length = 256 := by decide +kernel
  rw [checkedAssoValue, access_of_lt 0 inside, Outcome.ok_bind, access_of_lt 0, assoValue]
  rw [values]
  exact UInt8.toNat_lt _

private theorem checkedCase_eq (name : Bytes) (position : Nat) :
    checkedCase name position =
      .ok (if name.length > position then assoValue name position else 0) := by
  rw [checkedCase]
  split
  · rename_i more
    exact checkedAssoValue_eq more
  · rfl

private theorem checkedHashKey_eq {name : Bytes} (long : 3 ≤ name.length) :
    checkedHashKey name = .ok (hashKey name) := by
  have first := @checkedAssoValue_eq name 0 (by omega)
  have last := @checkedAssoValue_eq name (name.length - 1) (by omega)
  rw [checkedHashKey, checkedCase_eq, checkedCase_eq, first, last]
  rfl

private theorem checkedIndex_eq (name : Bytes) : checkedIndex name = .ok (index name) := by
  have lengths : lengthtable.length = 66 := by decide
  have words : wordlist.length = 66 := by decide
  rw [checkedIndex, index]
  by_cases sized : name.length < 3 ∨ name.length > 27
  · rw [if_pos sized, if_pos sized]
  · rw [if_neg sized, if_neg sized, checkedHashKey_eq (by omega), Outcome.ok_bind]
    by_cases small : hashKey name ≤ 65
    · rw [if_pos small, access_of_lt 0 (by omega), Outcome.ok_bind,
        access_of_lt (-1, -1) (by omega)]
      by_cases length : name.length = lengthtable.getD (hashKey name) 0
      · simp only [if_pos length, if_pos (And.intro small length)]
      · simp only [if_neg length, if_neg fun both => length (And.right both)]
    · simp only [if_neg small, if_neg fun both => small (And.left both)]

private theorem checkedSameBytes_eq {lhs rhs : Bytes} (length : lhs.length = rhs.length) :
    checkedSameBytes lhs rhs = .ok (sameBytes lhs rhs) := if_pos (Nat.le_of_eq length.symm)

private theorem checkedFindValue_eq (value : Bytes) {row count : Nat}
    (inside : row + count ≤ size) :
    checkedFindValue value row count = .ok (findValue value row count) := by
  induction count generalizing row with
  | zero => rfl
  | succ count ih =>
      have read : access fieldTable row = .ok (atIndex (row + 1)) :=
        access_of_lt ([], []) (show row < fieldTable.length by rw [← size]; omega)
      rw [checkedFindValue, findValue, read, Outcome.ok_bind]
      by_cases length : (atIndex (row + 1)).2.length = value.length
      · rw [if_pos length, checkedSameBytes_eq length, Outcome.ok_bind, ih (by omega)]
        simp only [length, true_and]
        split
        · rfl
        · rfl
      · rw [if_neg length, Outcome.ok_bind, ih (by omega)]
        simp only [length, false_and, Bool.false_eq_true, ↓reduceIte]

/-- All accesses are inside the arrays. -/
theorem checkedFieldIndex_eq (name value : Bytes) :
    checkedFieldIndex name value = .ok (fieldIndex name value) := by
  rw [checkedFieldIndex, checkedIndex_eq, Outcome.ok_bind, fieldIndex]
  by_cases negative : (index name).1 < 0
  · simp only [negative, ↓reduceIte, true_or]
  · obtain ⟨ordered, bound, rows⟩ := oneName_of_index (Int.not_lt.mp negative)
    obtain ⟨-, length⟩ := rows _ (by omega) ⟨Nat.le_refl _, by omega⟩
    have read : access fieldTable (index name).1.toNat = .ok (atIndex ((index name).1.toNat + 1)) :=
      access_of_lt ([], []) (show (index name).1.toNat < fieldTable.length by rw [← size]; omega)
    simp only [negative, ↓reduceIte, read, Outcome.ok_bind, checkedSameBytes_eq length, false_or]
    by_cases same : sameBytes (atIndex ((index name).1.toNat + 1)).1 name = true
    · simp only [same, Bool.not_true, Bool.false_eq_true, ↓reduceIte, not_true_eq_false,
        checkedFindValue_eq value (show (index name).1.toNat +
          ((index name).2.toNat + 1 - (index name).1.toNat) ≤ size by omega), Outcome.ok_bind]
      split
      · rfl
      · rfl
    · simp only [same, Bool.not_false, ↓reduceIte, Bool.false_eq_true, not_false_eq_true]

/-! ## The linear search -/

/-- The entry with the name and the value, or else the first one with the name. -/
def linearIndex (name value : Bytes) : Int × Bool :=
  match fieldTable.findIdx? (· = (name, value)) with
  | some row => (row + 1, true)
  | none =>
      match fieldTable.findIdx? (·.1 = name) with
      | some row => (row + 1, false)
      | none => (-1, false)

/-- The hash of every name of the table leads to its rows. -/
theorem known_of_row : ∀ row < size, Known (atIndex (row + 1)).1 ∧
    (index (atIndex (row + 1)).1).1.toNat ≤ row ∧ row ≤ (index (atIndex (row + 1)).1).2.toNat := by
  decide +kernel

/-- A row with a name is among those the hash of the name leads to. -/
theorem row_of_name {name : Bytes} {row : Nat} (inside : row < size)
    (same : (atIndex (row + 1)).1 = name) :
    Known name ∧ (index name).1.toNat ≤ row ∧ row ≤ (index name).2.toNat := by
  rw [← same]
  exact known_of_row row inside

/-- The search for a value finds the first row that has it. -/
theorem findValue_first (value : Bytes) (start count : Nat) :
    match findValue value start count with
    | some row => ∀ earlier, start ≤ earlier → earlier < row → (atIndex (earlier + 1)).2 ≠ value
    | none => ∀ row, start ≤ row → row < start + count → (atIndex (row + 1)).2 ≠ value := by
  induction count generalizing start with
  | zero => exact fun row lower upper => absurd upper (Nat.not_lt.mpr lower)
  | succ count ih =>
      have later := ih (start + 1)
      rw [findValue]
      by_cases here : (atIndex (start + 1)).2.length = value.length ∧
          sameBytes (atIndex (start + 1)).2 value
      · simp only [if_pos here]
        exact fun earlier lower upper => absurd upper (Nat.not_lt.mpr lower)
      · have different : (atIndex (start + 1)).2 ≠ value := by
          rintro rfl
          exact here ⟨rfl, by simp only [sameBytes, List.take_length, decide_true]⟩
        simp only [if_neg here]
        split
        · rename_i row search
          rw [search] at later
          intro earlier lower upper
          rcases Nat.eq_or_lt_of_le lower with rfl | after
          · exact different
          · exact later earlier after upper
        · rename_i search
          rw [search] at later
          intro row lower upper
          rcases Nat.eq_or_lt_of_le lower with rfl | after
          · exact different
          · exact later row after (by omega)

private theorem getElem_fieldTable {row : Nat} (inside : row < fieldTable.length) :
    fieldTable[row] = atIndex (row + 1) := by
  rw [atIndex, Nat.add_sub_cancel, List.getD_eq_getElem?_getD, List.getElem?_eq_getElem inside,
    Option.getD_some]

/-- A search of the table that stops at a row, in terms of `at`. -/
theorem findIdx_some {wanted : Bytes × Bytes → Bool} {row : Nat} (inside : row < size)
    (here : wanted (atIndex (row + 1)))
    (before : ∀ earlier, earlier < row → ¬ wanted (atIndex (earlier + 1))) :
    fieldTable.findIdx? wanted = some row := by
  rw [List.findIdx?_eq_some_iff_getElem]
  have bound : row < fieldTable.length := inside
  refine ⟨bound, ?_, ?_⟩
  · rw [getElem_fieldTable]
    exact here
  · intro earlier less
    rw [getElem_fieldTable]
    exact before earlier less

/-- A search of the table that finds no row, in terms of `at`. -/
theorem findIdx_none {wanted : Bytes × Bytes → Bool}
    (nowhere : ∀ row, row < size → ¬ wanted (atIndex (row + 1))) :
    fieldTable.findIdx? wanted = none := by
  rw [List.findIdx?_eq_none_iff]
  intro entry member
  obtain ⟨row, inside, rfl⟩ := List.getElem_of_mem member
  rw [getElem_fieldTable]
  exact Bool.not_eq_true _ ▸ nowhere row inside

/-- **The perfect hash.** For every name and value all accesses of `field_index` are
inside the arrays, and it returns what a linear search of the table returns. -/
theorem fieldIndex_linear (name value : Bytes) :
    checkedFieldIndex name value = .ok (linearIndex name value) ∧
      fieldIndex name value = linearIndex name value := by
  rw [checkedFieldIndex_eq, Except.ok.injEq, and_self]
  by_cases known : Known name
  · obtain ⟨ordered, bound, rows⟩ := rows_of_known known
    have found := known.1
    have first := findValue_first value (index name).1.toNat
      ((index name).2.toNat + 1 - (index name).1.toNat)
    rw [fieldIndex_of_known known]
    cases search : findValue value (index name).1.toNat
        ((index name).2.toNat + 1 - (index name).1.toNat) with
    | some row =>
        obtain ⟨lower, upper, hasValue⟩ := findValue_some search
        rw [search] at first
        have entry : atIndex (row + 1) = (name, value) :=
          Prod.ext (rows row lower (by omega)) hasValue
        have here : fieldTable.findIdx? (· = (name, value)) = some row := by
          refine findIdx_some (by omega) (decide_eq_true entry) ?_
          intro earlier before wanted
          rw [decide_eq_true_eq, Prod.ext_iff] at wanted
          obtain ⟨-, after, -⟩ := row_of_name (by omega) wanted.1
          exact first earlier after before wanted.2
        simp only [linearIndex, here, Int.add_comm]
    | none =>
        rw [search] at first
        have missing : fieldTable.findIdx? (· = (name, value)) = none := by
          refine findIdx_none fun row inside wanted => ?_
          rw [decide_eq_true_eq, Prod.ext_iff] at wanted
          obtain ⟨-, after, before⟩ := @row_of_name name row inside wanted.1
          exact first row after (by omega) wanted.2
        have named : fieldTable.findIdx? (·.1 = name) = some (index name).1.toNat := by
          refine findIdx_some (by omega)
            (decide_eq_true (rows _ (Nat.le_refl _) (by omega))) ?_
          intro earlier before wanted
          obtain ⟨-, after, -⟩ := row_of_name (by omega) (of_decide_eq_true wanted)
          omega
        simp only [linearIndex, missing, named, Int.toNat_of_nonneg found]
  · have absent (row : Nat) (inside : row < size) : (atIndex (row + 1)).1 ≠ name :=
      fun same => known (row_of_name inside same).1
    have missing : fieldTable.findIdx? (· = (name, value)) = none := by
      refine findIdx_none fun row inside wanted => absent row inside ?_
      exact congrArg Prod.fst (of_decide_eq_true wanted)
    have unnamed : fieldTable.findIdx? (·.1 = name) = none :=
      findIdx_none fun row inside wanted => absent row inside (of_decide_eq_true wanted)
    rw [fieldIndex_unknown known, linearIndex, missing, unnamed]

end H2pp.Hpack.StaticTable

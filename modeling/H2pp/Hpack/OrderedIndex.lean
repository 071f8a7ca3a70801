import H2pp.Hpack.Eviction
import H2pp.Lib.OrderedSearch
import Mathlib.Data.List.Lex
import Mathlib.Data.Prod.Lex

/-! # The ordered index of the encoder's table

`index_set` is ordered by `std::vector` comparison and searched by the order on spans,
which looks at sizes first. A record is found for certain exactly if the two orders
agree on it and every other record. Equal records share one place in the set, which is
lost when the first of them is evicted.
-/

namespace H2pp.Hpack

/-- The order of the set, as an order of lists of numbers. -/
def Record.key (record : Record) : List Nat ×ₗ List Nat :=
  toLex (record.name.map UInt8.toNat, record.value.map UInt8.toNat)

private theorem vectorLess_iff (lhs rhs : Bytes) :
    vectorLess lhs rhs = true ↔ lhs.map UInt8.toNat < rhs.map UInt8.toNat := by
  induction lhs generalizing rhs with
  | nil => cases rhs <;> simp [vectorLess]
  | cons head rest ih =>
      cases rhs with
      | nil => simp [vectorLess]
      | cons other others =>
          simp only [vectorLess, Bool.or_eq_true, decide_eq_true_eq, Bool.and_eq_true, beq_iff_eq,
            ih, List.map_cons, List.cons_lt_cons_iff, UInt8.lt_iff_toNat_lt, UInt8.toNat_inj]

private theorem map_toNat_inj {lhs rhs : Bytes} :
    lhs.map UInt8.toNat = rhs.map UInt8.toNat ↔ lhs = rhs :=
  (List.map_injective_iff.mpr fun _ _ => UInt8.toNat_inj.mp).eq_iff

private theorem recordLess_iff (lhs rhs : Record) :
    recordLess lhs rhs = true ↔ lhs.key < rhs.key := by
  simp only [recordLess, Bool.or_eq_true, Bool.and_eq_true, beq_iff_eq, vectorLess_iff, Record.key,
    Prod.Lex.toLex_lt_toLex, map_toNat_inj]

/-- The key of a record is its name and its value. -/
theorem key_inj {lhs rhs : Record} :
    lhs.key = rhs.key ↔ lhs.name = rhs.name ∧ lhs.value = rhs.value := by
  simp only [Record.key, toLex_inj, Prod.mk.injEq, map_toNat_inj]

private theorem sameKey_iff (lhs rhs : Record) : sameKey lhs rhs = true ↔ lhs.key = rhs.key := by
  simp only [sameKey, Bool.and_eq_true, beq_iff_eq, key_inj]

/-- The two comparisons of `index_comparator` say the same about two records. -/
def Agree (lhs rhs : Record) : Prop :=
  keyLess rhs.name rhs.value lhs = recordLess lhs rhs

instance (lhs rhs : Record) : Decidable (Agree lhs rhs) := inferInstanceAs (Decidable (_ = _))

/-- Only names and values are compared. -/
theorem Agree.of_key {lhs rhs lhs' rhs' : Record} (agree : Agree lhs rhs)
    (left : lhs.key = lhs'.key) (right : rhs.key = rhs'.key) : Agree lhs' rhs' := by
  obtain ⟨leftName, leftValue⟩ := key_inj.mp left
  obtain ⟨rightName, rightValue⟩ := key_inj.mp right
  simpa only [Agree, keyLess, recordLess, leftName, leftValue, rightName, rightValue] using agree

private theorem agree_self (record : Record) : Agree record record := by
  have ordered : recordLess record record = false :=
    Bool.eq_false_iff.mpr fun less => lt_irrefl _ ((recordLess_iff _ _).mp less)
  rw [Agree, ordered, keyLess, (spanCompare_eq_iff _ _).mpr rfl, (spanCompare_eq_iff _ _).mpr rfl]
  rfl

/-- A search that gives up when the set is not divided by the key. -/
def LowerBound.guarded : LowerBound where
  search := fun set less =>
    if (set.dropWhile less).all fun record => !less record then (set.dropWhile less).head?
    else none
  mem := by
    intro set less record found
    split at found
    · exact (List.dropWhile_suffix less).subset (List.mem_of_head? found)
    · cases found
  partitioned := by
    intro before after less low high
    have cut : (before ++ after).dropWhile less = after := by
      rw [List.dropWhile_append_of_pos low]
      cases after with
      | nil => rfl
      | cons record after => rw [List.dropWhile_cons_of_neg (by simp [high record])]
    rw [cut, if_pos (by simpa using high)]

namespace IndexedDynamicTable

open OrderedSearch (FirstAt)

/-- Every record of the table is found with its value, whatever the search does where
`lower_bound` is not specified. -/
def Finds (dyn : IndexedDynamicTable) : Prop :=
  ∀ (lowerBound : LowerBound), ∀ record ∈ dyn.table,
    (dyn.fieldIndex lowerBound record.name record.value).2 = true

/-- The index is in the order of the set, without repetitions. -/
def Ordered (set : List Record) : Prop := set.Pairwise fun low high => low.key < high.key

variable {dyn : IndexedDynamicTable} {set : List Record} {record entry : Record}

private theorem fieldIndex_hasValue_iff {lowerBound : LowerBound} {name value : Bytes} :
    (dyn.fieldIndex lowerBound name value).2 = true ↔
      ∃ entry, lowerBound.search dyn.indexSet (keyLess name value) = some entry ∧
        entry.name = name ∧ entry.value = value := by
  unfold fieldIndex
  cases lowerBound.search dyn.indexSet (keyLess name value) with
  | none => simp
  | some entry =>
      simp only [spanCompare_eq_iff]
      split <;> simp [*]

/-- A field is found by every search exactly if the set is divided by it at its place. -/
theorem found_iff :
    (∀ lowerBound, (dyn.fieldIndex lowerBound record.name record.value).2 = true) ↔
      ∃ entry, FirstAt dyn.indexSet (keyLess record.name record.value) entry ∧
        entry.key = record.key := by
  simp only [fieldIndex_hasValue_iff, key_inj]
  constructor
  · intro found
    obtain ⟨entry, search, same⟩ := found .guarded
    refine ⟨entry, ?_, same⟩
    simp only [LowerBound.guarded] at search
    split at search
    · rename_i divided
      obtain ⟨after, cut⟩ := List.head?_eq_some_iff.mp search
      refine OrderedSearch.firstAt_of_dropWhile cut ?_
      rw [cut] at divided
      simpa using divided
    · cases search
  · rintro ⟨entry, ⟨before, after, split, low, high⟩, same⟩ lowerBound
    refine ⟨entry, ?_, same⟩
    rw [split, lowerBound.partitioned low high, List.head?_cons]

private theorem firstAt_iff_agree (ordered : Ordered set) (member : entry ∈ set)
    (same : entry.key = record.key) :
    FirstAt set (keyLess record.name record.value) entry ↔ ∀ other ∈ set, Agree other record := by
  rw [OrderedSearch.firstAt_iff Record.key ordered member]
  refine forall₂_congr fun other _ => ?_
  rw [same, ← recordLess_iff, ← Bool.eq_iff_iff]
  exact Iff.rfl

/-- All records are found exactly if each has a place in the index and the two orders
agree on them. -/
theorem finds_iff (ordered : Ordered dyn.indexSet) :
    dyn.Finds ↔
      (∀ record ∈ dyn.table, ∃ entry ∈ dyn.indexSet, entry.key = record.key) ∧
        ∀ lhs ∈ dyn.table, ∀ rhs ∈ dyn.table, Agree lhs rhs := by
  have places : dyn.Finds ↔ ∀ record ∈ dyn.table, ∃ entry,
      FirstAt dyn.indexSet (keyLess record.name record.value) entry ∧ entry.key = record.key := by
    simp only [← found_iff]
    exact ⟨fun finds record member lowerBound => finds lowerBound record member,
      fun finds lowerBound record member => finds record member lowerBound⟩
  rw [places]
  constructor
  · intro found
    refine ⟨fun record member => ?_, fun lhs left rhs right => ?_⟩
    · obtain ⟨entry, first, same⟩ := found record member
      exact ⟨entry, first.mem, same⟩
    · obtain ⟨other, otherFirst, otherSame⟩ := found lhs left
      obtain ⟨entry, first, same⟩ := found rhs right
      have agree := (firstAt_iff_agree ordered first.mem same).mp first other otherFirst.mem
      exact agree.of_key otherSame rfl
  · rintro ⟨placed, agree⟩ record member
    obtain ⟨entry, inSet, same⟩ := placed record member
    refine ⟨entry, (firstAt_iff_agree ordered inSet same).mpr ?_, same⟩
    exact fun other found => agree other (dyn.indexed other found) record member

/-! ## What a change does to the index -/

private theorem mem_eraseIndex_iff {evicted : List Record} :
    entry ∈ eraseIndex evicted set ↔
      entry ∈ set ∧ ∀ old ∈ evicted, old.key ≠ entry.key := by
  induction evicted generalizing set with
  | nil => simp [eraseIndex]
  | cons record evicted ih =>
      rw [eraseIndex, List.foldl_cons, ← eraseIndex, ih, List.mem_filter, List.forall_mem_cons,
        and_assoc, Bool.not_eq_true', Bool.eq_false_iff, ne_eq, sameKey_iff]

/-- Evicting keeps the order of the set. -/
theorem eraseIndex_sublist (evicted set : List Record) :
    (eraseIndex evicted set).Sublist set := by
  induction evicted generalizing set with
  | nil => exact List.Sublist.refl set
  | cons record evicted ih => exact (ih _).trans List.filter_sublist

private theorem insertIndex_key_iff {key : List Nat ×ₗ List Nat} :
    (∃ entry ∈ insertIndex record set, entry.key = key) ↔
      record.key = key ∨ ∃ entry ∈ set, entry.key = key := by
  induction set with
  | nil => simp [insertIndex]
  | cons head set ih =>
      rw [insertIndex]
      split
      · rename_i same
        rw [sameKey_iff] at same
        simp [same]
      · split
        · simp
        · simp only [List.exists_mem_cons_iff, ih]
          exact or_left_comm

/-- Inserting keeps the set in order. -/
theorem Ordered.insertIndex (ordered : Ordered set) : Ordered (insertIndex record set) := by
  induction set with
  | nil => exact List.pairwise_singleton _ _
  | cons head set ih =>
      obtain ⟨above, rest⟩ := List.pairwise_cons.mp ordered
      rw [IndexedDynamicTable.insertIndex]
      split
      · exact ordered
      · rename_i different
        rw [sameKey_iff] at different
        split
        · rename_i less
          rw [recordLess_iff] at less
          refine List.pairwise_cons.mpr ⟨fun entry member => ?_, ordered⟩
          rcases List.mem_cons.mp member with rfl | later
          · exact less
          · exact less.trans (above entry later)
        · rename_i notLess
          rw [recordLess_iff] at notLess
          refine List.pairwise_cons.mpr ⟨fun entry member => ?_, ih rest⟩
          rcases mem_insertIndex member with rfl | old
          · exact lt_of_le_of_ne (not_lt.mp notLess) (Ne.symm different)
          · exact above entry old

private theorem Ordered.change (ordered : Ordered dyn.indexSet) (change : TableChange) :
    Ordered (dyn.change change).indexSet := by
  cases change with
  | insert name value => exact Ordered.insertIndex (ordered.sublist (eraseIndex_sublist _ _))
  | updateSize size => exact ordered.sublist (eraseIndex_sublist _ _)

/-- The position from which a change evicts. -/
def evictedFrom (dyn : IndexedDynamicTable) : TableChange → Nat
  | .insert name value =>
      dyn.shrinkTo (if name.length + value.length + 32 > dyn.hpackMaxSize then 0
        else dyn.hpackMaxSize - (name.length + value.length + 32))
  | .updateSize size => dyn.shrinkTo size

/-- The records that a change leaves in the table. -/
def kept (dyn : IndexedDynamicTable) (change : TableChange) : List Record :=
  dyn.table.take (dyn.evictedFrom change)

/-- The records that a change evicts. -/
def evicted (dyn : IndexedDynamicTable) (change : TableChange) : List Record :=
  dyn.table.drop (dyn.evictedFrom change)

/-- A record that is evicted has no equal among those that stay, or the field is just
being inserted; and both orders compare what is inserted with the records that stay in
the same way. -/
def Consistent (dyn : IndexedDynamicTable) (change : TableChange) : Prop :=
  match change with
  | .insert name value =>
      (∀ old ∈ dyn.evicted change, ∀ other ∈ dyn.kept change, old.key = other.key →
          other.name = name ∧ other.value = value) ∧
        ∀ other ∈ dyn.kept change, Agree other ⟨name, value, nextIndex (dyn.kept change)⟩ ∧
          Agree ⟨name, value, nextIndex (dyn.kept change)⟩ other
  | .updateSize _ => ∀ old ∈ dyn.evicted change, ∀ other ∈ dyn.kept change, old.key ≠ other.key

/-- Every record has a place in the index. -/
def Placed (dyn : IndexedDynamicTable) : Prop :=
  ∀ record ∈ dyn.table, ∃ entry ∈ dyn.indexSet, entry.key = record.key

/-- A record keeps its place unless an equal one is evicted. -/
theorem Placed.evict_iff (placed : dyn.Placed) (member : record ∈ dyn.table)
    {evicted : List Record} :
    (∃ entry ∈ eraseIndex evicted dyn.indexSet, entry.key = record.key) ↔
      ∀ old ∈ evicted, old.key ≠ record.key := by
  simp only [mem_eraseIndex_iff]
  constructor
  · rintro ⟨entry, ⟨-, different⟩, same⟩ old gone
    exact same ▸ different old gone
  · intro different
    obtain ⟨entry, inSet, same⟩ := placed record member
    exact ⟨entry, ⟨inSet, fun old gone => same ▸ different old gone⟩, same⟩

private theorem mem_of_kept {change : TableChange} (member : record ∈ dyn.kept change) :
    record ∈ dyn.table :=
  List.mem_of_mem_take member

private theorem Placed.updateSize_iff (placed : dyn.Placed) (size : Nat) :
    (dyn.updateSize size).Placed ↔ dyn.Consistent (.updateSize size) := by
  have table : (dyn.updateSize size).table = dyn.kept (.updateSize size) := rfl
  have index : (dyn.updateSize size).indexSet =
      eraseIndex (dyn.evicted (.updateSize size)) dyn.indexSet := rfl
  rw [Placed, table, index]
  constructor
  · intro after old gone other stays
    exact (placed.evict_iff (mem_of_kept stays)).mp (after other stays) old gone
  · intro apart other stays
    exact (placed.evict_iff (mem_of_kept stays)).mpr fun old gone => apart old gone other stays

private theorem Placed.insert_iff (placed : dyn.Placed) (name value : Bytes) :
    (dyn.insert name value).Placed ↔
      ∀ old ∈ dyn.evicted (.insert name value), ∀ other ∈ dyn.kept (.insert name value),
        old.key = other.key → other.name = name ∧ other.value = value := by
  generalize new : (⟨name, value, nextIndex (dyn.kept (.insert name value))⟩ : Record) = fresh
  have table : (dyn.insert name value).table = fresh :: dyn.kept (.insert name value) :=
    new ▸ rfl
  have index : (dyn.insert name value).indexSet =
      insertIndex fresh (eraseIndex (dyn.evicted (.insert name value)) dyn.indexSet) :=
    new ▸ rfl
  have field (other : Record) :
      fresh.key = other.key ↔ other.name = name ∧ other.value = value := by
    rw [eq_comm, key_inj, ← new]
  rw [Placed, table, index]
  simp only [insertIndex_key_iff, List.forall_mem_cons, true_or, true_and]
  simp only [field]
  constructor
  · intro after old gone other stays same
    refine (after other stays).resolve_right fun place => ?_
    exact (placed.evict_iff (mem_of_kept stays)).mp place old gone same
  · intro apart other stays
    by_cases renewed : other.name = name ∧ other.value = value
    · exact .inl renewed
    · refine .inr ((placed.evict_iff (mem_of_kept stays)).mpr fun old gone same => ?_)
      exact renewed (apart old gone other stays same)

/-- The orders agree on all records of a table. -/
def Agreeing (table : List Record) : Prop := ∀ lhs ∈ table, ∀ rhs ∈ table, Agree lhs rhs

private theorem agreeing_cons_iff {table : List Record} (agree : Agreeing table) :
    Agreeing (record :: table) ↔ ∀ other ∈ table, Agree other record ∧ Agree record other := by
  constructor
  · intro all other member
    exact ⟨all other (List.mem_cons_of_mem _ member) record List.mem_cons_self,
      all record List.mem_cons_self other (List.mem_cons_of_mem _ member)⟩
  · intro new lhs left rhs right
    rcases List.mem_cons.mp left with rfl | leftOld
    · rcases List.mem_cons.mp right with rfl | rightOld
      · exact agree_self _
      · exact (new rhs rightOld).2
    · rcases List.mem_cons.mp right with rfl | rightOld
      · exact (new lhs leftOld).1
      · exact agree lhs leftOld rhs rightOld

/-- A change after which all records are found, from a table in which they are. -/
theorem Finds.change_iff (finds : dyn.Finds) (ordered : Ordered dyn.indexSet)
    (change : TableChange) : (dyn.change change).Finds ↔ dyn.Consistent change := by
  obtain ⟨placed, agree⟩ := (finds_iff ordered).mp finds
  have agreeKept : Agreeing (dyn.kept change) := fun lhs left rhs right =>
    agree lhs (mem_of_kept left) rhs (mem_of_kept right)
  rw [finds_iff (ordered.change change)]
  cases change with
  | insert name value =>
      have new : Agreeing (dyn.insert name value).table ↔ _ := agreeing_cons_iff agreeKept
      exact and_congr (Placed.insert_iff placed name value) new
  | updateSize size =>
      rw [← Placed.updateSize_iff placed size]
      exact and_iff_left agreeKept

end IndexedDynamicTable

private theorem encoderTable_ordered (initial : Nat) (changes : List TableChange) :
    IndexedDynamicTable.Ordered (encoderTable initial changes).indexSet := by
  induction changes using List.reverseRecOn with
  | nil => exact List.Pairwise.nil
  | append_singleton changes change ih =>
      rw [encoderTable, List.foldl_append]
      exact ih.change change

/-- **Lookup in the ordered index.** In every run of changes from an empty table, all
records are found after every change exactly if every change is consistent with the
table it is made to: no record that stays loses the place it shares with an evicted
one, and the order of the set and the order of the search agree on what is inserted. -/
theorem lookup_finds_iff (initial : Nat) (changes : List TableChange) :
    (∀ count, (encoderTable initial (changes.take count)).Finds) ↔
      ∀ position (inside : position < changes.length),
        (encoderTable initial (changes.take position)).Consistent changes[position] := by
  refine prefixes_iff (fun done => (encoderTable initial done).Finds) changes nofun ?_
  intro position inside finds
  simp only [encoderTable, List.foldl_append]
  exact finds.change_iff (encoderTable_ordered initial _) _

/-- Of two fields, the one with the shorter name and the larger first byte is not found. -/
theorem lookup_misses_shorter_name :
    ¬ (encoderTable 4096 [.insert [98] [], .insert [97, 97] []]).Finds := by
  intro finds
  have found := finds .linear ⟨[98], [], 0⟩ (by decide)
  exact absurd found (by decide)

end H2pp.Hpack

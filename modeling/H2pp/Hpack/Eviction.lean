import H2pp.Hpack.TableSync
import H2pp.Lib.Fitting
import H2pp.Lib.Machine
import Mathlib.Data.List.Induction

/-! # Eviction

RFC 7541, section 4, asks a table to keep the longest newest-first prefix that fits.
`shrink_to` counts down the bytes still to evict in an unsigned variable. It stops at
the right place only if the count reaches zero exactly; otherwise the count wraps
around and the whole table is evicted. The encoder's and the decoder's tables share
this loop, and differ in the size they ask it for.
-/

namespace H2pp.Hpack

open Fitting

/-- More than there is to evict is asked for, and nothing is kept. -/
theorem evictionLoop_exhausted {records : List Record} {evictionSize : Nat}
    (asked : totalSize records < evictionSize) (small : evictionSize < 2 ^ 64) :
    evictionLoop records evictionSize = [] := by
  rcases List.eq_nil_or_concat records with rfl | ⟨older, newest, rfl⟩
  · rfl
  · rw [List.concat_eq_append, totalSize_append] at asked
    rw [List.concat_eq_append]
    exact evictionLoop_all older newest evictionSize (by omega) small

/-- The loop evicts exactly what it was asked for, or everything; and everything only
if no records but all sum up to what was asked for. -/
theorem evictionLoop_cases (records : List Record) (evictionSize : Nat)
    (bound : totalSize records < 2 ^ 64) (asked : 0 < evictionSize)
    (small : evictionSize ≤ totalSize records) :
    (∃ evicted, records = evicted ++ evictionLoop records evictionSize ∧
        totalSize evicted = evictionSize) ∨
      evictionLoop records evictionSize = [] ∧
        ∀ evicted kept, records = evicted ++ kept → kept ≠ [] →
          totalSize evicted ≠ evictionSize := by
  induction records generalizing evictionSize with
  | nil => exact absurd small (Nat.not_le.mpr asked)
  | cons record rest ih =>
      have positive := hpackSize_pos record
      rw [totalSize_cons] at bound small
      rw [evictionLoop_cons]
      rcases Nat.lt_trichotomy evictionSize record.hpackSize with less | rfl | greater
      · -- The count wraps around, and is then larger than all that is left.
        have wrapped : (evictionSize + 2 ^ 64 - record.hpackSize) % 2 ^ 64 =
            evictionSize + 2 ^ 64 - record.hpackSize := Nat.mod_eq_of_lt (by omega)
        refine .inr ⟨?_, ?_⟩
        · rw [wrapped, evictionLoop_exhausted (by omega) (by omega)]
          split
          · rfl
          · rename_i stops
            by_contra more
            exact stops ⟨more, by omega⟩
        · intro evicted kept split more
          cases evicted with
          | nil =>
              rw [totalSize_nil]
              exact (Nat.ne_of_gt asked).symm
          | cons first evicted =>
              rw [List.cons_append, List.cons.injEq] at split
              rw [totalSize_cons, ← split.1]
              omega
      · rw [Nat.add_sub_cancel_left, Nat.mod_self, if_neg fun go => Nat.lt_irrefl 0 go.2]
        exact .inl ⟨[record], rfl, by rw [totalSize_cons, totalSize_nil, Nat.add_zero]⟩
      · have left : (evictionSize + 2 ^ 64 - record.hpackSize) % 2 ^ 64 =
            evictionSize - record.hpackSize := by omega
        have more : rest ≠ [] := by
          rintro rfl
          rw [totalSize_nil] at small
          omega
        rw [left, if_pos ⟨more, by omega⟩]
        rcases ih (evictionSize - record.hpackSize) (by omega) (by omega) (by omega) with
          ⟨evicted, split, total⟩ | ⟨all, never⟩
        · refine .inl ⟨record :: evicted, congrArg (List.cons record) split, ?_⟩
          rw [totalSize_cons, total]
          omega
        · refine .inr ⟨all, fun evicted kept split some => ?_⟩
          cases evicted with
          | nil =>
              rw [totalSize_nil]
              exact (Nat.ne_of_gt asked).symm
          | cons first evicted =>
              rw [List.cons_append, List.cons.injEq] at split
              have other := never evicted kept split.2 some
              rw [totalSize_cons, ← split.1]
              omega

namespace DynamicTable

/-- Some newest records fill the room exactly, or all fit, or not even the newest does. -/
def ExactFit (dyn : DynamicTable) (room : Nat) : Prop :=
  dyn.tableSize ≤ room ∨ (∃ newer, newer <+: dyn.table ∧ totalSize newer = room) ∨
    ∀ newest ∈ dyn.table.head?, room < newest.hpackSize

/-- What shrinking leaves is the longest prefix that fits exactly if there is an exact fit. -/
theorem longest_shrinkTo_iff (dyn : DynamicTable) (room : Nat) (bound : dyn.tableSize < 2 ^ 64) :
    Longest Record.hpackSize room dyn.table (dyn.table.take (dyn.shrinkTo room)) ↔
      dyn.ExactFit room := by
  rw [shrinkTo]
  by_cases all : dyn.tableSize ≤ room
  · rw [if_pos all, List.take_length]
    exact iff_of_true (longest_self (Nat.le_trans (Nat.le_of_eq dyn.sized.symm) all)) (.inl all)
  · rw [if_neg all, take_evictionLoop]
    have total : totalSize dyn.table.reverse = dyn.tableSize := by
      rw [totalSize_reverse, dyn.sized]
    rcases evictionLoop_cases dyn.table.reverse (dyn.tableSize - room) (by omega) (by omega)
      (by omega) with ⟨evicted, split, exact_size⟩ | ⟨emptied, never⟩
    · generalize evictionLoop dyn.table.reverse (dyn.tableSize - room) = kept at split ⊢
      have whole : dyn.table = kept.reverse ++ evicted.reverse := by
        rw [← List.reverse_append, ← split, List.reverse_reverse]
      have part_of : kept.reverse <+: dyn.table := ⟨_, whole.symm⟩
      have fills : totalSize kept.reverse = room := by
        rw [split, totalSize_append] at total
        rw [totalSize_reverse]
        omega
      exact iff_of_true (longest_of_eq (fun record _ => hpackSize_pos record) part_of fills)
        (.inr (.inl ⟨_, part_of, fills⟩))
    · rw [emptied, List.reverse_nil, longest_nil_iff]
      refine ⟨fun large => .inr (.inr large), ?_⟩
      rintro (fits | ⟨newer, ⟨older, whole⟩, fills⟩ | large)
      · exact absurd fits all
      · cases newer with
        | nil =>
            intro newest _
            rw [← fills, totalSize_nil]
            exact hpackSize_pos newest
        | cons newest newer =>
            have reversed : dyn.table.reverse = older.reverse ++ (newest :: newer).reverse := by
              rw [← whole, List.reverse_append]
            have size := dyn.sized
            rw [← whole, totalSize_append, fills] at size
            refine absurd ?_ (never _ _ reversed (by simp))
            rw [totalSize_reverse]
            omega
      · exact large

/-- What RFC 7541 says an insertion does: the oldest entries that are in the way are
evicted and the new one is put in front; an entry larger than the table empties it. -/
def InsertsLikeRfc (dyn : DynamicTable) (name value : Bytes) (after : DynamicTable) : Prop :=
  if name.length + value.length + 32 ≤ dyn.hpackMaxSize then
    ∃ kept, Longest Record.hpackSize (dyn.hpackMaxSize - (name.length + value.length + 32))
        dyn.table kept ∧ entries after.table = (name, value) :: entries kept
  else after.table = []

/-- **Eviction.** A table is shrunk and an entry is inserted as RFC 7541 says exactly
if the room asked for is an exact fit, and the entry is not larger than the table. The
table with the new entry is in memory, so its size is below half the address space. -/
theorem evicts_like_rfc_iff (dyn : DynamicTable) (size : Nat) (name value : Bytes)
    (bound : dyn.tableSize + (name.length + value.length + 32) < 2 ^ 63) :
    (Longest Record.hpackSize size dyn.table (dyn.updateSize size).table ↔ dyn.ExactFit size) ∧
      (dyn.InsertsLikeRfc name value (dyn.insert name value) ↔
        name.length + value.length + 32 ≤ dyn.hpackMaxSize ∧
          dyn.ExactFit (dyn.hpackMaxSize - (name.length + value.length + 32))) := by
  refine ⟨dyn.longest_shrinkTo_iff size (by omega), ?_⟩
  rw [InsertsLikeRfc]
  by_cases fits : name.length + value.length + 32 ≤ dyn.hpackMaxSize
  · rw [if_pos fits, insert_of_fits fits bound, entries_insertImpl,
      ← dyn.longest_shrinkTo_iff _ (by omega), and_iff_right fits]
    have taken (kept : List Record) (longest : kept <+: dyn.table) (position : Nat)
        (same : (entries dyn.table).take position = entries kept) :
        dyn.table.take position = kept := by
      rw [entries, entries, ← List.map_take] at same
      have lengths := congrArg List.length same
      rw [List.length_map, List.length_map] at lengths
      exact (List.prefix_of_prefix_length_le (List.take_prefix _ _) longest
        (Nat.le_of_eq lengths)).eq_of_length lengths
    constructor
    · rintro ⟨kept, longest, same⟩
      rw [List.cons.injEq] at same
      exact (taken kept longest.isPrefix _ same.2) ▸ longest
    · intro longest
      refine ⟨_, longest, ?_⟩
      rw [entries, entries, List.map_take]
  · rw [if_neg fits, insert_of_large (Nat.not_le.mp fits) bound]
    exact iff_of_false (List.cons_ne_nil _ _) fun both => fits both.1

/-- A table of two entries of 34 bytes each. -/
def twoEntries : DynamicTable := ((create 4096).insert [97] [98]).insert [99] [100]

/-- Shrinking to 34 bytes keeps the newer of the two entries, and a third is inserted
in front of both. -/
theorem evicts_like_rfc_two_entries :
    twoEntries.ExactFit 34 ∧
      Longest Record.hpackSize 34 twoEntries.table (twoEntries.updateSize 34).table ∧
      twoEntries.InsertsLikeRfc [101] [102] (twoEntries.insert [101] [102]) := by
  have fit : twoEntries.ExactFit 34 :=
    .inr (.inl ⟨[⟨[99], [100], 1⟩], ⟨[⟨[97], [98], 0⟩], rfl⟩, rfl⟩)
  obtain ⟨shrinks, inserts⟩ :=
    evicts_like_rfc_iff twoEntries 34 [101] [102] (by decide)
  exact ⟨fit, shrinks.mpr fit, inserts.mpr ⟨by decide, .inl (by decide)⟩⟩

/-- Shrinking to 40 bytes evicts both entries although the newer one fits, and an entry
larger than the table is kept together with all that was there. -/
theorem evicts_too_much :
    ¬ Longest Record.hpackSize 40 twoEntries.table (twoEntries.updateSize 40).table ∧
      ¬ (twoEntries.updateSize 34).InsertsLikeRfc [101] [102, 103]
          ((twoEntries.updateSize 34).insert [101] [102, 103]) := by
  refine ⟨fun longest => ?_, fun emptied => ?_⟩
  · have none_left : (twoEntries.updateSize 40).table = [] := by decide
    rw [none_left, longest_nil_iff] at longest
    exact absurd (longest ⟨[99], [100], 1⟩ rfl) (by decide)
  · rw [InsertsLikeRfc, if_neg (by decide)] at emptied
    exact absurd emptied (by decide)

end DynamicTable

/-- A change of a table. -/
inductive TableChange where
  | insert (name value : Bytes)
  | updateSize (size : Nat)
  deriving DecidableEq, Repr

/-- The decoder's table after a change. -/
def DynamicTable.change (dyn : DynamicTable) : TableChange → DynamicTable
  | .insert name value => dyn.insert name value
  | .updateSize size => dyn.updateSize size

/-- The encoder's table after a change. -/
def IndexedDynamicTable.change (dyn : IndexedDynamicTable) : TableChange → IndexedDynamicTable
  | .insert name value => dyn.insert name value
  | .updateSize size => dyn.updateSize size

/-- The size of the entry a change brings. -/
def TableChange.entrySize : TableChange → Nat
  | .insert name value => name.length + value.length + 32
  | .updateSize _ => 0

/-- Two tables hold the same entries, under the same indices. -/
structure SameTable (encoder decoder : DynamicTable) : Prop where
  content : entries encoder.table = entries decoder.table
  lookups : ∀ index, encoder.atIndex index = decoder.atIndex index

/-- The change is a new maximum size, or an entry that fits in the current one, or it is
made to an empty table. -/
def TableChange.Fits (dyn : DynamicTable) (change : TableChange) : Prop :=
  change.entrySize ≤ dyn.hpackMaxSize ∨ dyn.table = []

private theorem SameTable.of_entries {encoder decoder : DynamicTable}
    (same : entries encoder.table = entries decoder.table) :
    SameTable encoder decoder := by
  refine ⟨same, fun index => ?_⟩
  have found := congrArg (fun entries => entries[index - 1]?) same
  simp only [entries, List.getElem?_map] at found
  rw [DynamicTable.atIndex, DynamicTable.atIndex]
  cases first : encoder.table[index - 1]? <;> cases second : decoder.table[index - 1]? <;>
    simp_all

/-- What an insertion leaves in the encoder's table. -/
theorem IndexedDynamicTable.entries_insert (dyn : IndexedDynamicTable) (name value : Bytes) :
    entries (dyn.insert name value).table =
      (name, value) :: (entries dyn.table).take (dyn.shrinkTo
        (if name.length + value.length + 32 > dyn.hpackMaxSize then 0
          else dyn.hpackMaxSize - (name.length + value.length + 32))) :=
  dyn.toDynamicTable.entries_insertImpl name value _

/-- One insertion keeps equal entries equal exactly if it fits. -/
theorem entries_insert_iff {encoder : IndexedDynamicTable} {decoder : DynamicTable}
    (same : entries encoder.table = entries decoder.table)
    (maxSize : encoder.hpackMaxSize = decoder.hpackMaxSize) (name value : Bytes)
    (bound : decoder.tableSize + (name.length + value.length + 32) < 2 ^ 63) :
    entries (encoder.insert name value).table = entries (decoder.insert name value).table ↔
      name.length + value.length + 32 ≤ decoder.hpackMaxSize ∨ decoder.table = [] := by
  rw [encoder.entries_insert, same, DynamicTable.shrinkTo_of_entries _ same, maxSize]
  by_cases large : name.length + value.length + 32 > decoder.hpackMaxSize
  · have emptied : decoder.shrinkTo 0 = 0 :=
      decoder.shrinkTo_eq_zero (by omega) fun newest _ => hpackSize_pos newest
    rw [if_pos large, emptied, DynamicTable.insert_of_large large bound, List.take_zero,
      or_iff_right (Nat.not_le.mpr large)]
    cases decoder.table with
    | nil => exact iff_of_true rfl rfl
    | cons newest older => exact iff_of_false (by simp [entries]) (List.cons_ne_nil _ _)
  · have fits := Nat.not_lt.mp large
    rw [if_neg large, DynamicTable.insert_of_fits fits bound, DynamicTable.entries_insertImpl]
    exact iff_of_true rfl (.inl fits)

/-- One change keeps two equal tables equal exactly if it fits. -/
theorem SameTable.change_iff {encoder : IndexedDynamicTable} {decoder : DynamicTable}
    (same : SameTable encoder.toDynamicTable decoder)
    (maxSize : encoder.hpackMaxSize = decoder.hpackMaxSize) (change : TableChange)
    (bound : decoder.tableSize + change.entrySize < 2 ^ 63) :
    SameTable (encoder.change change).toDynamicTable (decoder.change change) ↔
      change.Fits decoder := by
  cases change with
  | updateSize size =>
      refine iff_of_true (.of_entries ?_) (.inl (Nat.zero_le _))
      change entries (encoder.table.take (encoder.shrinkTo size)) =
        entries (decoder.table.take (decoder.shrinkTo size))
      rw [DynamicTable.shrinkTo_of_entries size same.content, entries, entries, List.map_take,
        List.map_take]
      exact congrArg (List.take _) same.content
  | insert name value =>
      rw [TableChange.Fits, TableChange.entrySize,
        ← entries_insert_iff same.content maxSize name value bound]
      exact ⟨fun after => after.content, .of_entries⟩

private theorem change_hpackMaxSize {encoder : IndexedDynamicTable} {decoder : DynamicTable}
    (maxSize : encoder.hpackMaxSize = decoder.hpackMaxSize) (change : TableChange) :
    (encoder.change change).hpackMaxSize = (decoder.change change).hpackMaxSize := by
  cases change with
  | insert name value => exact maxSize
  | updateSize size => rfl

section Changes

variable (initial : Nat)

/-- The decoder's table after some changes. -/
def decoderTable (changes : List TableChange) : DynamicTable :=
  changes.foldl DynamicTable.change (.create initial)

/-- The encoder's table after some changes. -/
def encoderTable (changes : List TableChange) : IndexedDynamicTable :=
  changes.foldl IndexedDynamicTable.change (.create initial)

private theorem encoderTable_hpackMaxSize (changes : List TableChange) :
    (encoderTable initial changes).hpackMaxSize = (decoderTable initial changes).hpackMaxSize := by
  induction changes using List.reverseRecOn with
  | nil => rfl
  | append_singleton changes change ih =>
      rw [encoderTable, decoderTable, List.foldl_append, List.foldl_append]
      exact change_hpackMaxSize ih change

variable (changes : List TableChange)

/-- Before each change of a run, the table and the new entry are in memory. -/
def InMemory : Prop :=
  ∀ position (inside : position < changes.length),
    (decoderTable initial (changes.take position)).tableSize + changes[position].entrySize < 2 ^ 63

/-- Each change of a run fits in the table it is made to. -/
def AllFit : Prop :=
  ∀ position (inside : position < changes.length),
    changes[position].Fits (decoderTable initial (changes.take position))

/-- **The two tables.** A run of changes from any initial size keeps the encoder's and
the decoder's table the same, after every change, exactly if every entry fits in the
maximum size that is then in force or is inserted into an empty table. -/
theorem tables_same_iff (inMemory : InMemory initial changes) :
    (∀ count, SameTable (encoderTable initial (changes.take count)).toDynamicTable
        (decoderTable initial (changes.take count))) ↔ AllFit initial changes := by
  refine prefixes_iff (fun done => SameTable (encoderTable initial done).toDynamicTable
    (decoderTable initial done)) changes (.of_entries rfl) ?_
  intro position inside same
  simp only [encoderTable, decoderTable, List.foldl_append]
  exact same.change_iff (encoderTable_hpackMaxSize initial _) _ (inMemory position inside)

end Changes

/-- Two entries, a smaller size and an entry that does not fit into the empty table. -/
theorem tables_same_small_table :
    SameTable
      (encoderTable 100 [.insert [97] [98], .insert [99] [], .updateSize 8,
        .insert [100] []]).toDynamicTable
      (decoderTable 100 [.insert [97] [98], .insert [99] [], .updateSize 8, .insert [100] []]) :=
  (tables_same_iff 100 [.insert [97] [98], .insert [99] [], .updateSize 8, .insert [100] []]
    (by unfold InMemory; decide)).mpr (by unfold AllFit TableChange.Fits; decide) 4

/-- An entry larger than the table empties the encoder's table and not the decoder's. -/
theorem tables_differ_large_entry :
    ¬ SameTable (encoderTable 40 [.insert [97] [], .insert [98] (List.replicate 8 0)]).toDynamicTable
      (decoderTable 40 [.insert [97] [], .insert [98] (List.replicate 8 0)]) :=
  fun same => absurd same.content (by decide)

end H2pp.Hpack

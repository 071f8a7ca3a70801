import H2pp.Hpack.Decoder
import H2pp.Hpack.TableSync

/-! # The memory bound of the decoder

The peer chooses every insertion and every size update of the decoder's table. The
decoder checks neither: a size update may be larger than the size the client has
advertised, and an entry larger than the table is stored all the same. Each command
that does neither keeps the bound, in blocks that are accepted and in blocks that fail.
-/

namespace H2pp.Hpack.Decoder

open Utils

/-- `DefaultTableSize`, which is also the header table size that the client advertises. -/
def defaultTableSize : Nat := 4096

/-- The table is not larger than its maximum size, nor that than what is advertised. -/
structure Bounded (table : DynamicTable) : Prop where
  total : table.tableSize ≤ table.hpackMaxSize
  advertised : table.hpackMaxSize ≤ defaultTableSize

private theorem bounded_create : Bounded create.table := ⟨Nat.zero_le _, Nat.le_refl _⟩

/-- The command at the front of the input, if it is a size update, stays within the
advertised size, and the entry it inserts, if any, is not larger than the table. -/
def CommandAllowed (table : DynamicTable) (src : Span) : Prop :=
  match decodeCmd (src.mem 0) with
  | .changeTableSize => ∀ size, Integer.decode Command.changeTableSize.bitlen src.bytes = .ok size →
      size.value ≤ defaultTableSize
  | .literalIncrementalIndex => ∀ rest field,
      literalWithoutIndexImpl table src .default Command.literalIncrementalIndex.bitlen =
          .ok (rest, field) →
        field.name.length + field.value.length + 32 ≤ table.hpackMaxSize
  | _ => True

/-- The command at the front of the input leaves a bounded table, unless it fails. -/
def KeepsBound (table : DynamicTable) (src : Span) : Prop :=
  ∀ next, runCommand table src = .ok next → Bounded next.table

/-- After a size update the table is not larger than the new size. -/
theorem bounded_updateSize_iff {table : DynamicTable} (bounded : Bounded table) (size : Nat) :
    Bounded (table.updateSize size) ↔ size ≤ defaultTableSize := by
  refine ⟨fun after => after.advertised, fun small => ⟨?_, small⟩⟩
  have room := Nat.le_trans bounded.total bounded.advertised
  rw [defaultTableSize] at room
  exact table.eraseFrom_shrinkTo_tableSize size (by omega)

/-- An entry that is inserted is in the table, however large it is. -/
theorem bounded_insert_iff {table : DynamicTable} (bounded : Bounded table) (name value : Bytes) :
    Bounded (table.insert name value) ↔
      name.length + value.length + 32 ≤ table.hpackMaxSize := by
  constructor
  · rintro ⟨total, -⟩
    exact Nat.le_trans (Nat.le_add_left _ _) total
  · intro fits
    have room := bounded.total
    have small := bounded.advertised
    rw [defaultTableSize] at small
    have kept := table.eraseFrom_shrinkTo_tableSize
      (table.hpackMaxSize - (name.length + value.length + 32)) (by omega)
    rw [DynamicTable.insert_of_fits fits (by omega)]
    refine ⟨?_, bounded.advertised⟩
    change (table.eraseFrom _).tableSize + (name.length + value.length + 32) ≤ table.hpackMaxSize
    omega

/-- An indexed field leaves the table alone. -/
theorem indexCmd_table {table : DynamicTable} {src : Span} {next : Progress}
    (ran : indexCmd table src = .ok next) : next.table = table := by
  obtain ⟨index, -, ran⟩ := Outcome.bind_eq_ok.mp ran
  split at ran
  · cases ran
  · obtain ⟨entry, -, ran⟩ := Outcome.bind_eq_ok.mp ran
    obtain ⟨field, -, ran⟩ := Outcome.bind_eq_ok.mp ran
    cases ran
    rfl

/-- On a bounded table a command keeps the bound exactly if it is allowed. -/
theorem keepsBound_iff {table : DynamicTable} (bounded : Bounded table) (src : Span) :
    KeepsBound table src ↔ CommandAllowed table src := by
  rw [KeepsBound, CommandAllowed, runCommand]
  cases decodeCmd (src.mem 0) with
  | index => exact iff_of_true (fun next ran => indexCmd_table ran ▸ bounded) trivial
  | changeTableSize =>
      constructor
      · intro keeps size read
        exact (bounded_updateSize_iff bounded size.value).mp
          (keeps ⟨_, _, []⟩ (Outcome.bind_eq_ok.mpr ⟨size, read, rfl⟩))
      · intro allowed next ran
        obtain ⟨size, read, ran⟩ := Outcome.bind_eq_ok.mp ran
        cases ran
        exact (bounded_updateSize_iff bounded size.value).mpr (allowed size read)
  | literalIncrementalIndex =>
      constructor
      · intro keeps rest field read
        exact (bounded_insert_iff bounded field.name field.value).mp
          (keeps ⟨rest, _, [field]⟩ (Outcome.bind_eq_ok.mpr ⟨(rest, field), read, rfl⟩))
      · intro allowed next ran
        obtain ⟨⟨rest, field⟩, read, ran⟩ := Outcome.bind_eq_ok.mp ran
        cases ran
        exact (bounded_insert_iff bounded field.name field.value).mpr (allowed rest field read)
  | literalWithoutIndex =>
      refine iff_of_true (fun next ran => ?_) trivial
      obtain ⟨⟨rest, field⟩, -, ran⟩ := Outcome.bind_eq_ok.mp ran
      cases ran
      exact bounded
  | literalNeverIndex =>
      refine iff_of_true (fun next ran => ?_) trivial
      obtain ⟨⟨rest, field⟩, -, ran⟩ := Outcome.bind_eq_ok.mp ran
      cases ran
      exact bounded

/-- A condition on the table and the input before every command of a block, up to its
end or to a command that fails. -/
def CommandsMeet (condition : DynamicTable → Span → Prop) : Nat → DynamicTable → Span → Prop
  | 0, _, _ => True
  | fuel + 1, table, src =>
      src.size = 0 ∨ condition table src ∧
        ∀ next, runCommand table src = .ok next → CommandsMeet condition fuel next.table next.src

/-- The condition is met by all commands of all blocks. -/
def BlocksMeet (condition : DynamicTable → Span → Prop) : Decoder → List Span → Prop
  | _, [] => True
  | decoder, block :: blocks =>
      CommandsMeet condition block.size decoder.table block ∧
        BlocksMeet condition (decoder.decode block).1 blocks

/-- The decoder after some blocks, accepted or not. -/
def decodeBlocks (decoder : Decoder) (blocks : List Span) : Decoder :=
  blocks.foldl (fun decoder block => (decoder.decode block).1) decoder

private theorem commandsMeet_iff {table : DynamicTable} (bounded : Bounded table) (fuel : Nat)
    (src : Span) :
    CommandsMeet KeepsBound fuel table src ↔ CommandsMeet CommandAllowed fuel table src := by
  induction fuel generalizing table src with
  | zero => exact Iff.rfl
  | succ fuel ih =>
      rw [CommandsMeet, CommandsMeet, ← keepsBound_iff bounded src]
      refine or_congr_right (and_congr_right fun keeps => ?_)
      exact forall_congr' fun next => forall_congr' fun ran => ih (keeps next ran) next.src

/-- A block of allowed commands leaves a bounded table, whether it is accepted or not. -/
theorem decodeLoop_bounded {table : DynamicTable} (bounded : Bounded table) {fuel : Nat}
    {src : Span} (allowed : CommandsMeet CommandAllowed fuel table src)
    (fields : List HeaderField) : Bounded (decodeLoop fuel table src fields).1 := by
  induction fuel generalizing table src fields with
  | zero => exact bounded
  | succ fuel ih =>
      rw [decodeLoop]
      split
      · exact bounded
      · rename_i more
        obtain ⟨first, later⟩ := allowed.resolve_left more
        split
        · exact bounded
        · rename_i next ran
          exact ih ((keepsBound_iff bounded src).mpr first next ran) (later next ran) _

private theorem blocksMeet_iff {decoder : Decoder} (bounded : Bounded decoder.table)
    (blocks : List Span) :
    BlocksMeet KeepsBound decoder blocks ↔ BlocksMeet CommandAllowed decoder blocks := by
  induction blocks generalizing decoder with
  | nil => exact Iff.rfl
  | cons block blocks ih =>
      rw [BlocksMeet, BlocksMeet, commandsMeet_iff bounded]
      exact and_congr_right fun allowed => ih (decodeLoop_bounded bounded allowed [])

private theorem decodeBlocks_bounded {decoder : Decoder} (bounded : Bounded decoder.table)
    {blocks : List Span} (allowed : BlocksMeet CommandAllowed decoder blocks) (count : Nat) :
    Bounded (decoder.decodeBlocks (blocks.take count)).table := by
  induction blocks generalizing decoder count with
  | nil =>
      rw [List.take_nil]
      exact bounded
  | cons block blocks ih =>
      cases count with
      | zero => exact bounded
      | succ count => exact ih (decodeLoop_bounded bounded allowed.1 []) allowed.2 count

/-- **The memory bound.** For any blocks, all commands keep the table of a new decoder
bounded exactly if all of them are allowed, and the table is then bounded after every
block, accepted or not. -/
theorem decoder_bounded_iff (blocks : List Span) :
    (BlocksMeet KeepsBound create blocks ↔ BlocksMeet CommandAllowed create blocks) ∧
      (BlocksMeet CommandAllowed create blocks →
        ∀ count, Bounded (create.decodeBlocks (blocks.take count)).table) :=
  ⟨blocksMeet_iff bounded_create blocks,
    fun allowed count => decodeBlocks_bounded bounded_create allowed count⟩

/-- A size update to 4097, and one to 0 followed by a literal field that is indexed. -/
theorem decoder_exceeds_bound :
    ¬ Bounded (create.decodeBlocks [.ofBytes (fun _ => 0) [0x3f, 0xe2, 0x1f]]).table ∧
      ¬ Bounded (create.decodeBlocks
        [.ofBytes (fun _ => 0) [0x20, 0x40, 0x01, 0x61, 0x01, 0x62]]).table :=
  ⟨fun bounded => absurd bounded.advertised (by decide +kernel),
    fun bounded => absurd bounded.total (by decide +kernel)⟩

end H2pp.Hpack.Decoder

import H2pp.Hpack.HeaderField
import H2pp.Hpack.HpackTable
import H2pp.Hpack.String

/-! # The decoder

`hpack/decoder.cpp`. A header block is a sequence of commands, each starting with
the high bits of its first byte. A command that throws leaves the table as it
was; the changes made by the commands before it stay.
-/

namespace H2pp.Hpack

open Utils

/-- `decode_cmd(byte)`. -/
def decodeCmd (byte : UInt8) : Command :=
  if byte &&& Command.index.value ≠ 0 then .index
  else if byte &&& Command.literalIncrementalIndex.mask = Command.literalIncrementalIndex.value then
    .literalIncrementalIndex
  else if byte &&& Command.changeTableSize.value = Command.changeTableSize.value then
    .changeTableSize
  else if byte &&& Command.literalWithoutIndex.mask = Command.literalWithoutIndex.value then
    .literalWithoutIndex
  else .literalNeverIndex

namespace Decoder

/-- What a command leaves: the rest of the input, the table, and the field it
adds to the header, if any. -/
structure Progress where
  src : Span
  table : DynamicTable
  added : List HeaderField

/-- `index_cmd`. -/
def indexCmd (table : DynamicTable) (src : Span) : Except Failure Progress := do
  let index ← Integer.decode Command.index.bitlen src.bytes
  if index.value = 0 then .error (.runtimeError "Invalid index value")
  else do
    let entry ← HpackTable.atIndex table index.value
    let field ← HeaderField.create entry.1 entry.2 .default
    .ok ⟨src.subspan index.usedBytes, table, [field]⟩

/-- `change_table_size_cmd`. -/
def changeTableSizeCmd (table : DynamicTable) (src : Span) : Except Failure Progress := do
  let maxSize ← Integer.decode Command.changeTableSize.bitlen src.bytes
  .ok ⟨src.subspan maxSize.usedBytes, table.updateSize maxSize.value, []⟩

/-- The name of a literal: a string if the index is zero, or a table entry's. -/
def literalName (table : DynamicTable) (src : Span) (index : Nat) :
    Except Failure (Bytes × Span) :=
  if index = 0 then do
    let decodedName ← StringLiteral.decode src
    .ok (decodedName.value, src.subspan decodedName.usedBytes)
  else do
    let entry ← HpackTable.atIndex table index
    .ok (entry.1, src)

/-- `literal_without_index_impl`. -/
def literalWithoutIndexImpl (table : DynamicTable) (src : Span) (type : IndexType) (bits : Nat) :
    Except Failure (Span × HeaderField) := do
  let index ← Integer.decode bits src.bytes
  let (name, src) ← literalName table (src.subspan index.usedBytes) index.value
  let decodedValue ← StringLiteral.decode src
  let field ← HeaderField.create name decodedValue.value type
  .ok (src.subspan decodedValue.usedBytes, field)

/-- `literal_without_index_cmd`. -/
def literalWithoutIndexCmd (table : DynamicTable) (src : Span) : Except Failure Progress := do
  let (src, field) ← literalWithoutIndexImpl table src .withoutIndex
    Command.literalWithoutIndex.bitlen
  .ok ⟨src, table, [field]⟩

/-- `literal_never_index_cmd`. -/
def literalNeverIndexCmd (table : DynamicTable) (src : Span) : Except Failure Progress := do
  let (src, field) ← literalWithoutIndexImpl table src .neverIndex Command.literalNeverIndex.bitlen
  .ok ⟨src, table, [field]⟩

/-- `literal_incremental_index_cmd`. -/
def literalIncrementalIndexCmd (table : DynamicTable) (src : Span) : Except Failure Progress := do
  let (src, field) ← literalWithoutIndexImpl table src .default
    Command.literalIncrementalIndex.bitlen
  .ok ⟨src, table.insert field.name field.value, [field]⟩

/-- The command that `commands[decode_cmd(src.front())]` selects. -/
def runCommand (table : DynamicTable) (src : Span) : Except Failure Progress :=
  match decodeCmd (src.mem 0) with
  | .index => indexCmd table src
  | .literalIncrementalIndex => literalIncrementalIndexCmd table src
  | .changeTableSize => changeTableSizeCmd table src
  | .literalWithoutIndex => literalWithoutIndexCmd table src
  | .literalNeverIndex => literalNeverIndexCmd table src

/-- The loop of `decode`. A command uses at least one byte, so as many rounds as
there are bytes are enough. -/
def decodeLoop : Nat → DynamicTable → Span → List HeaderField →
    DynamicTable × Except Failure (List HeaderField)
  | 0, table, _, fields => (table, .ok fields)
  | fuel + 1, table, src, fields =>
      if src.size = 0 then (table, .ok fields)
      else
        match runCommand table src with
        | .error failure => (table, .error failure)
        | .ok next => decodeLoop fuel next.table next.src (fields ++ next.added)

end Decoder

/-- `decoder`. -/
structure Decoder where
  table : DynamicTable

namespace Decoder

/-- A new decoder, with `DefaultTableSize`. -/
def create : Decoder := ⟨.create 4096⟩

/-- `decode(src)`: the decoder after the call, and the header or the exception. -/
def decode (decoder : Decoder) (src : Span) : Decoder × Except Failure (List HeaderField) :=
  let (table, result) := decodeLoop src.size decoder.table src []
  (⟨table⟩, result)

end Decoder

end H2pp.Hpack

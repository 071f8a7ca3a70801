import H2pp.Hpack.EncoderStream
import H2pp.Hpack.HpackTable
import H2pp.Lib.Outcome

/-! # The encoder

`hpack/encoder.cpp`. Each field of the list is written as an index, as a literal
with an indexed name, or as a literal with its name, until one does not fit.
-/

namespace H2pp.Hpack

open Utils

/-- The variables of the loop of `encode`, and the table. -/
structure EncodeState where
  out : EncoderStream
  table : IndexedDynamicTable
  bytesLeft : Nat
  encodedFields : Nat

/-- The command for a field that is not fully indexed. -/
def HeaderField.command (field : HeaderField) : Command :=
  match field.type with
  | .default => .literalIncrementalIndex
  | .withoutIndex => .literalWithoutIndex
  | .neverIndex => .literalNeverIndex

namespace EncodeState

/-- Account for a field of `fieldSize` bytes. -/
def written (state : EncodeState) (out : EncoderStream) (table : IndexedDynamicTable)
    (fieldSize : Nat) : EncodeState :=
  ⟨out, table, state.bytesLeft - fieldSize, state.encodedFields + 1⟩

/-- A fully indexed field; `none` is the `break` of the loop. -/
def indexedField (state : EncodeState) (index : Nat) : Except Failure (Option EncodeState) := do
  let encodedIndex ← Integer.encodeCommand .index index
  if encodedIndex.length > state.bytesLeft then .ok none
  else
    .ok (some (state.written (state.out.pushBack encodedIndex).1 state.table encodedIndex.length))

/-- A literal whose name is already indexed. -/
def namedField (config : EncoderConfig) (state : EncodeState) (index : Nat)
    (field : HeaderField) : Except Failure (Option EncodeState) := do
  let nameIndex ← Integer.encodeCommand field.command index
  if nameIndex.length > state.bytesLeft then .ok none
  else
    let valueSz := estimateStringSize config field.value
    if nameIndex.length + valueSz.1 > state.bytesLeft then .ok none
    else do
      let encodedValueSize ← Integer.encodeFlag valueSz.2 valueSz.1
      let fieldSize := nameIndex.length + valueSz.1 + encodedValueSize.length
      if fieldSize > state.bytesLeft then .ok none
      else
        let out := (state.out.pushBack nameIndex).1.writeString valueSz encodedValueSize field.value
        let table :=
          if field.command = .literalIncrementalIndex then state.table.insert field.name field.value
          else state.table
        .ok (some (state.written out table fieldSize))

/-- A literal with its name. The table is not touched, and the command byte is
not counted. -/
def literalField (config : EncoderConfig) (state : EncodeState) (field : HeaderField) :
    Except Failure (Option EncodeState) := do
  let nameSz := estimateStringSize config field.name
  if nameSz.1 > state.bytesLeft then .ok none
  else do
    let encodedNameSize ← Integer.encodeFlag nameSz.2 nameSz.1
    if nameSz.1 + encodedNameSize.length > state.bytesLeft then .ok none
    else
      let valueSz := estimateStringSize config field.value
      if nameSz.1 + encodedNameSize.length + valueSz.1 > state.bytesLeft then .ok none
      else do
        let encodedValueSize ← Integer.encodeFlag valueSz.2 valueSz.1
        let fieldSize :=
          nameSz.1 + encodedNameSize.length + valueSz.1 + encodedValueSize.length
        if fieldSize > state.bytesLeft then .ok none
        else
          let out := (state.out.pushBack [field.command.value]).1
          let out := out.writeString nameSz encodedNameSize field.name
          let out := out.writeString valueSz encodedValueSize field.value
          .ok (some (state.written out state.table fieldSize))

/-- One round of the loop. -/
def encodeField (lowerBound : LowerBound) (config : EncoderConfig) (state : EncodeState)
    (field : HeaderField) : Except Failure (Option EncodeState) :=
  let index := HpackTable.fieldIndex lowerBound state.table field.name field.value
  let hasValue := if field.type ≠ .default then false else index.2
  if index.1 ≠ -1 ∧ hasValue then state.indexedField (index.1 % 2 ^ 32).toNat
  else if index.1 ≠ -1 then state.namedField config (index.1 % 2 ^ 32).toNat field
  else state.literalField config field

/-- The loop of `encode`. -/
def encodeLoop (lowerBound : LowerBound) (config : EncoderConfig) :
    EncodeState → List HeaderField → Except Failure EncodeState
  | state, [] => .ok state
  | state, field :: fields => do
      match ← state.encodeField lowerBound config field with
      | none => .ok state
      | some next => encodeLoop lowerBound config next fields

end EncodeState

/-- `encoder`. -/
structure Encoder where
  config : EncoderConfig
  table : IndexedDynamicTable

namespace Encoder

/-- `encoder()`. -/
def create : Encoder := ⟨{}, .create ({} : EncoderConfig).initTableSize⟩

/-- `set_config(conf)`. -/
def setConfig (encoder : Encoder) (config : EncoderConfig) : Encoder := { encoder with config }

/-- `encode(fields, size_limit)`: the buffers, how many fields they hold, and the
encoder after the call. -/
def encode (lowerBound : LowerBound) (encoder : Encoder) (fields : List HeaderField)
    (sizeLimit : Nat) : Except Failure (List Buffer × Nat × Encoder) := do
  let state ← EncodeState.encodeLoop lowerBound encoder.config
    ⟨.create sizeLimit, encoder.table, sizeLimit, 0⟩ fields
  .ok (state.out.flush.1, state.encodedFields, { encoder with table := state.table })

end Encoder

/-! ## Exceptions -/

open Outcome (bind_ne_error ite_ne_error ok_ne_error)

/-- An integer that is too large is refused with an exception. -/
theorem Integer.encode_defined (init : UInt8) (bitlen value : Nat) :
    Integer.encode init bitlen value ≠ .error .undefinedBehaviour := by
  unfold Integer.encode
  split
  · exact fun same => (by cases same)
  · exact ite_ne_error (ok_ne_error _ _) (ok_ne_error _ _)

/-- Numbers up to `MAX_HPACK_INT` are encoded without an exception. -/
theorem Integer.encode_ne_error (init : UInt8) (bitlen : Nat) {value : Nat}
    (bound : value ≤ Integer.maxHpackInt) (failure : Failure) :
    Integer.encode init bitlen value ≠ .error failure := by
  rw [Integer.encode, if_neg (Nat.not_lt.mpr bound)]
  exact ite_ne_error (ok_ne_error _ _) (ok_ne_error _ _)

namespace EncodeState

variable {lowerBound : LowerBound} {config : EncoderConfig} {state : EncodeState}
  {field : HeaderField} {failure : Failure}

/-- The length of a string is written without the failure. -/
def LengthWritten (config : EncoderConfig) (failure : Failure) (src : Bytes) : Prop :=
  Integer.encodeFlag (estimateStringSize config src).2 (estimateStringSize config src).1 ≠
    .error failure

/-- The length of a string of a field can be written. -/
theorem lengthWritten {src : Bytes} (admitted : HeaderField.Admitted src.length)
    (failure : Failure) : LengthWritten config failure src := by
  obtain ⟨encodedSize, -, written, -⟩ := writeString_spec config (.create 0) admitted
  rw [LengthWritten, written]
  exact ok_ne_error _ _

/-- An indexed field fails only with its index. -/
theorem indexedField_ne_error {index : Nat}
    (name : Integer.encodeCommand .index index ≠ .error failure) :
    state.indexedField index ≠ .error failure :=
  bind_ne_error name fun _ => ite_ne_error (ok_ne_error _ _) (ok_ne_error _ _)

/-- A field with an indexed name fails only with its index or its value. -/
theorem namedField_ne_error {index : Nat}
    (name : Integer.encodeCommand field.command index ≠ .error failure)
    (value : LengthWritten config failure field.value) :
    state.namedField config index field ≠ .error failure := by
  refine bind_ne_error name fun nameIndex => ?_
  refine ite_ne_error (ok_ne_error _ _) (ite_ne_error (ok_ne_error _ _) ?_)
  refine bind_ne_error value fun valueSize => ?_
  exact ite_ne_error (ok_ne_error _ _) (ok_ne_error _ _)

/-- A literal field fails only with its name or its value. -/
theorem literalField_ne_error (name : LengthWritten config failure field.name)
    (value : LengthWritten config failure field.value) :
    state.literalField config field ≠ .error failure := by
  refine ite_ne_error (ok_ne_error _ _) ?_
  refine bind_ne_error name fun nameSize => ?_
  refine ite_ne_error (ok_ne_error _ _) (ite_ne_error (ok_ne_error _ _) ?_)
  refine bind_ne_error value fun valueSize => ?_
  exact ite_ne_error (ok_ne_error _ _) (ok_ne_error _ _)

/-- A round fails only if an index or the length of a string cannot be written. -/
theorem encodeField_ne_error
    (index : (HpackTable.fieldIndex lowerBound state.table field.name field.value).1 ≠ -1 →
      ∀ cmd, Integer.encodeCommand cmd
        ((HpackTable.fieldIndex lowerBound state.table field.name field.value).1 % 2 ^ 32).toNat ≠
          .error failure)
    (name : LengthWritten config failure field.name)
    (value : LengthWritten config failure field.value) :
    state.encodeField lowerBound config field ≠ .error failure := by
  simp only [encodeField]
  generalize HpackTable.fieldIndex lowerBound state.table field.name field.value = found at index ⊢
  by_cases absent : found.1 = -1
  · rw [if_neg fun present => present.1 absent, if_neg fun present => present absent]
    exact literalField_ne_error name value
  · refine ite_ne_error ?_ ?_
    · exact indexedField_ne_error (index absent _)
    · rw [if_pos absent]
      exact namedField_ne_error (index absent _) value

private theorem encodeLoop_defined (lowerBound : LowerBound) (config : EncoderConfig)
    (state : EncodeState) (fields : List HeaderField) :
    encodeLoop lowerBound config state fields ≠ .error .undefinedBehaviour := by
  induction fields generalizing state with
  | nil => exact ok_ne_error _ _
  | cons field fields ih =>
      have defined : state.encodeField lowerBound config field ≠ .error .undefinedBehaviour :=
        encodeField_ne_error (fun _ _ => Integer.encode_defined _ _ _)
          (Integer.encode_defined _ _ _) (Integer.encode_defined _ _ _)
      refine bind_ne_error defined fun next => ?_
      cases next with
      | none => exact ok_ne_error _ _
      | some next => exact ih next

end EncodeState

/-- Encoding has a defined outcome. -/
theorem Encoder.encode_defined (lowerBound : LowerBound) (encoder : Encoder)
    (fields : List HeaderField) (sizeLimit : Nat) :
    encoder.encode lowerBound fields sizeLimit ≠ .error .undefinedBehaviour :=
  bind_ne_error (EncodeState.encodeLoop_defined lowerBound encoder.config _ fields)
    fun _ => ok_ne_error _ _

end H2pp.Hpack

import H2pp.Hpack.Encoder

/-! # The rounds of the encoder

What one round of the loop of `encode` does: the bytes it writes, what is taken off the
bytes left and what is inserted into the table. A literal with its name is written with
one byte more than is taken off.
-/

namespace H2pp.Hpack

open Utils

/-- A command with its index takes at least one byte. -/
theorem encodeCommand_nonempty {cmd : Command} {index : Nat} {bytes : Bytes}
    (written : Integer.encodeCommand cmd index = .ok bytes) : 0 < bytes.length := by
  simp only [Integer.encodeCommand, Integer.encode] at written
  split at written
  · cases written
  · split at written <;> rw [← Except.ok.inj written] <;> exact Nat.succ_pos _

private theorem command_eq_incremental (field : HeaderField) :
    field.command = .literalIncrementalIndex ↔ field.type = .default := by
  unfold HeaderField.command
  cases field.type <;> simp only [reduceCtorEq]

/-- The three ways to represent a field. -/
inductive Representation
  | indexed
  | named
  | literal
  deriving DecidableEq, Repr

/-- The bytes that represent a field: an index of the table; or the command for its type
with the index of its name, and its value; or the bare command, its name and its value. -/
def Representation.Written (config : EncoderConfig) (field : HeaderField) (bytes : Bytes) :
    Representation → Prop
  | .indexed => ∃ index, Integer.encodeCommand .index index = .ok bytes
  | .named => ∃ index nameIndex value, Integer.encodeCommand field.command index = .ok nameIndex ∧
      stringLiteral config field.value = .ok value ∧ bytes = nameIndex ++ value
  | .literal => ∃ name value, stringLiteral config field.name = .ok name ∧
      stringLiteral config field.value = .ok value ∧ bytes = field.command.value :: (name ++ value)

/-- The representation that is chosen for a field. -/
def representation (lowerBound : LowerBound) (table : IndexedDynamicTable) (field : HeaderField) :
    Representation :=
  let index := HpackTable.fieldIndex lowerBound table field.name field.value
  if index.1 = -1 then .literal
  else if field.type = .default ∧ index.2 then .indexed
  else .named

namespace EncodeState

/-- A round of the encoder's loop that has written `bytes`. -/
structure Wrote (state next : EncodeState) (bytes : Bytes) : Prop where
  contents : next.out.stream.contents = state.out.stream.contents ++ bytes
  room : next.bytesLeft ≤ next.out.left
  counted : next.encodedFields = state.encodedFields + 1

/-- A round that has written `bytes`, a representation of `field`. -/
structure Round (config : EncoderConfig) (form : Representation) (field : HeaderField)
    (state next : EncodeState) (bytes : Bytes) : Prop extends state.Wrote next bytes where
  written : form.Written config field bytes
  nonempty : 0 < bytes.length
  accounted : next.bytesLeft + bytes.length =
    state.bytesLeft + if form = .literal then 1 else 0
  table : next.table =
    if form = .named ∧ field.type = .default then state.table.insert field.name field.value
    else state.table

variable {state next : EncodeState} {field : HeaderField} {config : EncoderConfig}

private theorem pushBack_fits {out : EncoderStream} {bytes : Bytes}
    (room : bytes.length ≤ out.left) :
    (out.pushBack bytes).1.stream.contents = out.stream.contents ++ bytes ∧
      (out.pushBack bytes).1.left = out.left - bytes.length := by
  rw [EncoderStream.pushBack, if_pos room]
  exact ⟨Streambuf.contents_pushBack _ _, rfl⟩

/-- A round that goes on has not taken the `break`. -/
theorem break_eq_some {exceeds : Prop} [Decidable exceeds]
    {rest : Except Failure (Option EncodeState)} :
    (if exceeds then .ok none else rest) = .ok (some next) ↔
      ¬ exceeds ∧ rest = .ok (some next) := by
  by_cases taken : exceeds <;> simp [taken]

/-- What a round writes for a field of the table: its index. -/
theorem indexedField_round {index : Nat} (room : state.bytesLeft ≤ state.out.left)
    (done : state.indexedField index = .ok (some next)) :
    ∃ bytes, Integer.encodeCommand .index index = .ok bytes ∧
      Round config .indexed field state next bytes := by
  obtain ⟨bytes, written, rest⟩ := Outcome.bind_eq_ok.mp done
  obtain ⟨fits, rest⟩ := break_eq_some.mp rest
  cases rest
  obtain ⟨contents, left⟩ := pushBack_fits (show bytes.length ≤ state.out.left by omega)
  refine ⟨bytes, written, ⟨contents, ?_, rfl⟩, ⟨index, written⟩, encodeCommand_nonempty written,
    ?_, rfl⟩
  · simp only [EncodeState.written, left]
    omega
  · simp only [EncodeState.written, reduceCtorEq, ↓reduceIte]
    omega

/-- What a round writes for a field whose name is in the table. -/
theorem namedField_round {index : Nat} (room : state.bytesLeft ≤ state.out.left)
    (done : state.namedField config index field = .ok (some next)) :
    ∃ nameIndex value, Integer.encodeCommand field.command index = .ok nameIndex ∧
      stringLiteral config field.value = .ok value ∧
      Round config .named field state next (nameIndex ++ value) := by
  obtain ⟨nameIndex, written, rest⟩ := Outcome.bind_eq_ok.mp done
  obtain ⟨encodedSize, body, sized, -, length, contents, -⟩ :=
    writeString_spec config (state.out.pushBack nameIndex).1 field.value_admitted
  have value := stringLiteral_of_writeString sized contents
  have nonempty := encodeCommand_nonempty written
  rw [← length] at sized
  simp only [← length, sized, Outcome.ok_bind, break_eq_some] at rest
  obtain ⟨-, -, fits, rest⟩ := rest
  cases rest
  obtain ⟨pushed, left⟩ := pushBack_fits (show nameIndex.length ≤ state.out.left by omega)
  refine ⟨nameIndex, encodedSize ++ body, written, value, ⟨?_, ?_, rfl⟩,
    ⟨index, nameIndex, _, written, value, rfl⟩, ?_, ?_, ?_⟩
  · simp only [EncodeState.written, contents, pushed, List.append_assoc]
  · simp only [EncodeState.written, EncoderStream.writeString_left, left]
    omega
  · rw [List.length_append]
    omega
  · simp only [EncodeState.written, reduceCtorEq, ↓reduceIte, List.length_append]
    omega
  · simp only [EncodeState.written, command_eq_incremental, true_and]

/-- What a round writes for a field that the table does not have. -/
theorem literalField_round (room : state.bytesLeft ≤ state.out.left)
    (done : state.literalField config field = .ok (some next)) :
    ∃ bytes, Round config .literal field state next bytes := by
  obtain ⟨nameSize, nameBody, nameSized, nameNonempty, nameLength, nameContents, -⟩ :=
    writeString_spec config (state.out.pushBack [field.command.value]).1 field.name_admitted
  obtain ⟨valueSize, valueBody, valueSized, -, valueLength, valueContents, -⟩ :=
    writeString_spec config ((state.out.pushBack [field.command.value]).1.writeString
      (estimateStringSize config field.name) nameSize field.name) field.value_admitted
  have name := stringLiteral_of_writeString nameSized nameContents
  have value := stringLiteral_of_writeString valueSized valueContents
  rw [← nameLength] at nameSized
  rw [← valueLength] at valueSized
  simp only [literalField, ← nameLength, nameSized, ← valueLength, valueSized, Outcome.ok_bind,
    break_eq_some] at done
  obtain ⟨-, -, -, fits, done⟩ := done
  cases done
  obtain ⟨pushed, left⟩ := pushBack_fits
    (show [field.command.value].length ≤ state.out.left by rw [List.length_singleton]; omega)
  refine ⟨field.command.value :: (nameSize ++ nameBody ++ (valueSize ++ valueBody)),
    ⟨?_, ?_, rfl⟩, ⟨_, _, name, value, rfl⟩, Nat.succ_pos _, ?_, rfl⟩
  · simp only [EncodeState.written, valueContents, nameContents, pushed, List.append_assoc,
      List.cons_append, List.nil_append]
  · simp only [EncodeState.written, EncoderStream.writeString_left, left, List.length_singleton]
    omega
  · simp only [EncodeState.written, ↓reduceIte, List.length_cons, List.length_append]
    omega

/-- A round, by the representation of its field. -/
theorem encodeField_eq (lowerBound : LowerBound) (config : EncoderConfig) (state : EncodeState)
    (field : HeaderField) :
    state.encodeField lowerBound config field =
      let index :=
        ((HpackTable.fieldIndex lowerBound state.table field.name field.value).1 % 2 ^ 32).toNat
      match representation lowerBound state.table field with
      | .indexed => state.indexedField index
      | .named => state.namedField config index field
      | .literal => state.literalField config field := by
  rw [encodeField]
  unfold representation
  generalize HpackTable.fieldIndex lowerBound state.table field.name field.value = index
  by_cases absent : index.1 = -1
  · simp only [absent, ne_eq, not_true_eq_false, false_and, ↓reduceIte]
  · simp only [absent, ne_eq, not_false_eq_true, true_and, ↓reduceIte]
    by_cases isDefault : field.type = .default
    · simp only [isDefault, not_true_eq_false, ↓reduceIte, true_and]
      split <;> rfl
    · simp only [isDefault, not_false_eq_true, Bool.false_eq_true, ↓reduceIte, false_and]

/-- **One round.** A field that is encoded is written in the representation chosen for
it. -/
theorem encodeField_round {lowerBound : LowerBound} (room : state.bytesLeft ≤ state.out.left)
    (done : state.encodeField lowerBound config field = .ok (some next)) :
    ∃ bytes, Round config (representation lowerBound state.table field) field state next bytes := by
  rw [encodeField_eq] at done
  cases form : representation lowerBound state.table field with
  | indexed =>
      simp only [form] at done
      obtain ⟨bytes, -, round⟩ := indexedField_round room done
      exact ⟨bytes, round⟩
  | named =>
      simp only [form] at done
      obtain ⟨nameIndex, value, -, -, round⟩ := namedField_round room done
      exact ⟨_, round⟩
  | literal =>
      simp only [form] at done
      exact literalField_round room done

end EncodeState

/-! ## The size of what is written -/

namespace EncodeState

section Size

variable (lowerBound : LowerBound) (config : EncoderConfig)

/-- Every field that is encoded has its name, when its turn comes, in one of the tables. -/
def NamesFound : EncodeState → List HeaderField → Prop
  | _, [] => True
  | state, field :: fields =>
      match state.encodeField lowerBound config field with
      | .ok (some next) =>
          (HpackTable.fieldIndex lowerBound state.table field.name field.value).1 ≠ -1 ∧
            NamesFound next fields
      | _ => True

instance NamesFound.decidable : (state : EncodeState) → (fields : List HeaderField) →
    Decidable (NamesFound lowerBound config state fields)
  | _, [] => isTrue trivial
  | state, field :: fields =>
      have : Decidable (match state.encodeField lowerBound config field with
          | .ok (some next) =>
              (HpackTable.fieldIndex lowerBound state.table field.name field.value).1 ≠ -1 ∧
                NamesFound lowerBound config next fields
          | _ => True) :=
        match state.encodeField lowerBound config field with
        | .ok (some next) =>
            have := NamesFound.decidable next fields
            inferInstanceAs (Decidable (_ ∧ _))
        | .ok none | .error _ => isTrue trivial
      this

variable {lowerBound config}

private theorem namesFound_of_break {state : EncodeState} {field : HeaderField}
    {fields : List HeaderField}
    (encoded : state.encodeField lowerBound config field = .ok none) :
    NamesFound lowerBound config state (field :: fields) := by
  change match state.encodeField lowerBound config field with
    | .ok (some next) => _ ∧ NamesFound lowerBound config next fields
    | _ => True
  rw [encoded]
  trivial

private theorem namesFound_of_round {state next : EncodeState} {field : HeaderField}
    {fields : List HeaderField}
    (encoded : state.encodeField lowerBound config field = .ok (some next)) :
    NamesFound lowerBound config state (field :: fields) ↔
      (HpackTable.fieldIndex lowerBound state.table field.name field.value).1 ≠ -1 ∧
        NamesFound lowerBound config next fields := by
  change (match state.encodeField lowerBound config field with
    | .ok (some next) => _ ∧ NamesFound lowerBound config next fields
    | _ => True) ↔ _
  rw [encoded]

private theorem representation_literal_iff (table : IndexedDynamicTable) (field : HeaderField) :
    representation lowerBound table field = .literal ↔
      (HpackTable.fieldIndex lowerBound table field.name field.value).1 = -1 := by
  simp only [representation]
  split
  · simp [*]
  · split <;> simp [*]

/-- What the loop writes is what it takes off, and one byte for each name that was not
found. -/
theorem encodeLoop_size {state final : EncodeState} {fields : List HeaderField}
    (room : state.bytesLeft ≤ state.out.left)
    (done : state.encodeLoop lowerBound config fields = .ok final) :
    final.bytesLeft ≤ state.bytesLeft ∧
      ∃ extra, final.bytesLeft + final.out.stream.contents.length =
          state.bytesLeft + state.out.stream.contents.length + extra ∧
        (extra = 0 ↔ NamesFound lowerBound config state fields) := by
  induction fields generalizing state with
  | nil =>
      cases done
      exact ⟨Nat.le_refl _, 0, rfl, iff_of_true rfl trivial⟩
  | cons field fields ih =>
      obtain ⟨result, encoded, rest⟩ := Outcome.bind_eq_ok.mp done
      cases result with
      | none =>
          cases rest
          exact ⟨Nat.le_refl _, 0, rfl, iff_of_true rfl (namesFound_of_break encoded)⟩
      | some next =>
          obtain ⟨bytes, round⟩ := encodeField_round room encoded
          obtain ⟨less, extra, size, exact⟩ := ih round.room rest
          have accounted := round.accounted
          have nonempty := round.nonempty
          rw [round.contents, List.length_append] at size
          rw [namesFound_of_round encoded, ← exact, ne_eq, ← representation_literal_iff]
          by_cases literal : representation lowerBound state.table field = .literal
          · rw [if_pos literal] at accounted
            exact ⟨by omega, extra + 1, by omega, by simp [literal]⟩
          · rw [if_neg literal] at accounted
            exact ⟨by omega, extra, by omega, by simp [literal]⟩

end Size

/-- A loop that counts no field has changed nothing. -/
theorem encodeLoop_counted {lowerBound : LowerBound} {final : EncodeState}
    {fields : List HeaderField} (room : state.bytesLeft ≤ state.out.left)
    (done : state.encodeLoop lowerBound config fields = .ok final) :
    final = state ∨ state.encodedFields < final.encodedFields := by
  induction fields generalizing state with
  | nil =>
      cases done
      exact .inl rfl
  | cons field fields ih =>
      obtain ⟨result, encoded, rest⟩ := Outcome.bind_eq_ok.mp done
      cases result with
      | none =>
          cases rest
          exact .inl rfl
      | some next =>
          obtain ⟨bytes, round⟩ := encodeField_round room encoded
          have counted := round.counted
          rcases ih round.room rest with same | more
          · rw [same]
            omega
          · omega

end EncodeState

namespace Encoder

/-- A call that encodes nothing leaves the encoder as it is. -/
theorem encode_none {lowerBound : LowerBound} {encoder after : Encoder}
    {fields : List HeaderField} {sizeLimit : Nat} {buffers : List Buffer}
    (encoded : encoder.encode lowerBound fields sizeLimit = .ok (buffers, 0, after)) :
    after = encoder := by
  obtain ⟨final, done, rest⟩ := Outcome.bind_eq_ok.mp encoded
  have result := Except.ok.inj rest
  have counted : final.encodedFields = 0 := congrArg (·.2.1) result
  have left : { encoder with table := final.table } = after := congrArg (·.2.2) result
  rcases EncodeState.encodeLoop_counted (Nat.le_refl _) done with same | more
  · rw [← left, same]
  · omega

/-- The variables of `encode` before its loop. -/
def start (encoder : Encoder) (sizeLimit : Nat) : EncodeState :=
  ⟨.create sizeLimit, encoder.table, sizeLimit, 0⟩

/-- The number of bytes in some buffers. -/
def bytesIn (buffers : List Buffer) : Nat := (buffers.map fun buffer => buffer.data.length).sum

/-- **The size limit.** Whenever `encode` returns, its buffers hold at most `size_limit`
bytes, and as many as were subtracted from `bytes_left`, exactly if no field was
encoded whose name neither table had. -/
theorem encode_size_iff (lowerBound : LowerBound) (encoder : Encoder) (fields : List HeaderField)
    (sizeLimit : Nat) (final : EncodeState)
    (done : (encoder.start sizeLimit).encodeLoop lowerBound encoder.config fields = .ok final) :
    encoder.encode lowerBound fields sizeLimit =
        .ok (final.out.flush.1, final.encodedFields, { encoder with table := final.table }) ∧
      (bytesIn final.out.flush.1 ≤ sizeLimit ∧
          bytesIn final.out.flush.1 = sizeLimit - final.bytesLeft ↔
        EncodeState.NamesFound lowerBound encoder.config (encoder.start sizeLimit) fields) := by
  refine ⟨Outcome.bind_eq_ok.mpr ⟨final, done, rfl⟩, ?_⟩
  have held : bytesIn final.out.flush.1 = final.out.stream.contents.length :=
    List.length_flatMap.symm
  obtain ⟨less, extra, size, exact⟩ := EncodeState.encodeLoop_size (Nat.le_refl _) done
  have empty : (encoder.start sizeLimit).out.stream.contents.length = 0 := rfl
  have limit : (encoder.start sizeLimit).bytesLeft = sizeLimit := rfl
  rw [held, ← exact]
  omega

/-- A field from the static table takes one byte. -/
theorem encode_size_static :
    ∃ final, (create.start 16).encodeLoop .linear {} [⟨ascii ":method", ascii "GET", .default,
        by decide⟩] = .ok final ∧
      bytesIn final.out.flush.1 ≤ 16 ∧ bytesIn final.out.flush.1 = 16 - final.bytesLeft := by
  have passes : ((create.start 16).encodeLoop .linear {} [⟨ascii ":method", ascii "GET", .default,
      by decide⟩]).toOption.any (fun _ => true) = true := by
    decide +kernel
  obtain ⟨final, done, -⟩ := Outcome.exists_ok_of_any passes
  exact ⟨final, done, (encode_size_iff .linear create _ 16 final done).2.mpr (by decide +kernel)⟩

/-- A field with a new name and no value takes four bytes where three are left. -/
theorem encode_exceeds_limit :
    ∃ buffers after, create.encode .linear [⟨[120], [], .default, by decide⟩] 3 =
      .ok (buffers, 1, after) ∧ bytesIn buffers = 4 := by
  have passes : (create.encode .linear [⟨[120], [], .default, by decide⟩] 3).toOption.any
      (fun result => decide (result.2.1 = 1 ∧ bytesIn result.1 = 4)) = true := by
    decide +kernel
  obtain ⟨⟨buffers, count, after⟩, done, checks⟩ := Outcome.exists_ok_of_any passes
  obtain ⟨rfl, bytes⟩ := of_decide_eq_true checks
  exact ⟨buffers, after, done, bytes⟩

end Encoder

end H2pp.Hpack

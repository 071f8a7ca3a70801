import H2pp.Hpack.EncoderRounds

/-! # Encoding in pieces

A header list that does not fit one frame is encoded by several calls of `encode`, each on
the fields the last one has left. What a field becomes depends on the table only, never on
the size limit, so the pieces join to what one call with room for all of it returns.
-/

namespace H2pp.Hpack

open Utils

section Fields

variable (lowerBound : LowerBound) (config : EncoderConfig)

/-- The bytes of a field, for a table. -/
def fieldBytes (table : IndexedDynamicTable) (field : HeaderField) : Except Failure Bytes :=
  let index := ((HpackTable.fieldIndex lowerBound table field.name field.value).1 % 2 ^ 32).toNat
  match representation lowerBound table field with
  | .indexed => Integer.encodeCommand .index index
  | .named => do
      let nameIndex ← Integer.encodeCommand field.command index
      let value ← stringLiteral config field.value
      .ok (nameIndex ++ value)
  | .literal => do
      let name ← stringLiteral config field.name
      let value ← stringLiteral config field.value
      .ok (field.command.value :: (name ++ value))

/-- The table after a field. -/
def storeField (table : IndexedDynamicTable) (field : HeaderField) : IndexedDynamicTable :=
  if representation lowerBound table field = .named ∧ field.type = .default then
    table.insert field.name field.value
  else table

/-- Encoding without a limit: the bytes written and the table, after one more field. -/
def appendField (written : Bytes × IndexedDynamicTable) (field : HeaderField) :
    Except Failure (Bytes × IndexedDynamicTable) := do
  let bytes ← fieldBytes lowerBound config written.2 field
  .ok (written.1 ++ bytes, storeField lowerBound written.2 field)

variable {lowerBound config}

/-- Fields that are appended do not depend on the bytes before them. -/
theorem foldlM_appendField {front bytes : Bytes} {table after : IndexedDynamicTable}
    {fields : List HeaderField} :
    fields.foldlM (appendField lowerBound config) (front, table) = .ok (bytes, after) ↔
      ∃ rest, fields.foldlM (appendField lowerBound config) ([], table) = .ok (rest, after) ∧
        bytes = front ++ rest := by
  induction fields generalizing front bytes table with
  | nil =>
      simp only [List.foldlM_nil, pure, Except.pure, Except.ok.injEq, Prod.mk.injEq]
      constructor
      · rintro ⟨rfl, rfl⟩
        exact ⟨[], ⟨rfl, rfl⟩, (List.append_nil _).symm⟩
      · rintro ⟨rest, ⟨rfl, rfl⟩, rfl⟩
        exact ⟨(List.append_nil _).symm, rfl⟩
  | cons field fields ih =>
      simp only [List.foldlM_cons, appendField]
      cases fieldBytes lowerBound config table field with
      | error failure => simp only [Outcome.error_bind, reduceCtorEq, false_and, exists_false]
      | ok written =>
          simp only [Outcome.ok_bind]
          rw [ih]
          constructor
          · rintro ⟨rest, done, rfl⟩
            exact ⟨written ++ rest, ih.mpr ⟨rest, done, rfl⟩, List.append_assoc _ _ _⟩
          · rintro ⟨tail, done, rfl⟩
            obtain ⟨rest, alone, rfl⟩ := ih.mp done
            exact ⟨rest, alone, (List.append_assoc _ _ _).symm⟩

end Fields

namespace EncodeState

variable {lowerBound : LowerBound} {config : EncoderConfig} {state next final : EncodeState}
  {field : HeaderField} {fields : List HeaderField}

/-- What a limit does not change: the bytes written and the table. -/
def observed (state : EncodeState) : Bytes × IndexedDynamicTable :=
  (state.out.stream.contents, state.table)

/-- A round that goes on appends its field. -/
theorem encodeField_appends (room : state.bytesLeft ≤ state.out.left)
    (done : state.encodeField lowerBound config field = .ok (some next)) :
    appendField lowerBound config state.observed field = .ok next.observed := by
  suffices ∃ bytes, fieldBytes lowerBound config state.table field = .ok bytes ∧
      Round config (representation lowerBound state.table field) field state next bytes by
    obtain ⟨bytes, written, round⟩ := this
    rw [appendField, observed, observed, written, Outcome.ok_bind, round.contents, round.table]
    rfl
  rw [encodeField_eq] at done
  unfold fieldBytes
  cases form : representation lowerBound state.table field with
  | indexed =>
      simp only [form] at done ⊢
      exact indexedField_round room done
  | named =>
      simp only [form] at done ⊢
      obtain ⟨nameIndex, value, index, literal, round⟩ := namedField_round room done
      exact ⟨_, by simp only [index, literal, Outcome.ok_bind], round⟩
  | literal =>
      simp only [form] at done ⊢
      obtain ⟨bytes, round⟩ := literalField_round room done
      obtain ⟨name, value, nameLiteral, valueLiteral, rfl⟩ := round.written
      exact ⟨_, by simp only [nameLiteral, valueLiteral, Outcome.ok_bind], round⟩

/-- A round has enough room for its field when all its bytes are left. -/
theorem encodeField_fits {bytes : Bytes}
    (written : fieldBytes lowerBound config state.table field = .ok bytes)
    (fits : bytes.length ≤ state.bytesLeft) :
    ∃ next, state.encodeField lowerBound config field = .ok (some next) := by
  rw [encodeField_eq]
  unfold fieldBytes at written
  cases form : representation lowerBound state.table field with
  | indexed =>
      simp only [form] at written ⊢
      rw [indexedField, written, Outcome.ok_bind, if_neg (by omega)]
      exact ⟨_, rfl⟩
  | named =>
      simp only [form] at written ⊢
      obtain ⟨nameIndex, index, rest⟩ := Outcome.bind_eq_ok.mp written
      obtain ⟨value, literal, rest⟩ := Outcome.bind_eq_ok.mp rest
      cases rest
      obtain ⟨encodedSize, body, sized, -, length, contents, -⟩ :=
        writeString_spec config (.create 0) field.value_admitted
      rw [stringLiteral_of_writeString sized contents, Except.ok.injEq] at literal
      rw [← literal, List.length_append, List.length_append] at fits
      rw [← length] at sized
      simp only [namedField, index, sized, ← length, Outcome.ok_bind]
      rw [if_neg (by omega), if_neg (by omega), if_neg (by omega)]
      exact ⟨_, rfl⟩
  | literal =>
      simp only [form] at written ⊢
      obtain ⟨name, nameLiteral, rest⟩ := Outcome.bind_eq_ok.mp written
      obtain ⟨value, valueLiteral, rest⟩ := Outcome.bind_eq_ok.mp rest
      cases rest
      obtain ⟨nameSize, nameBody, nameSized, -, nameLength, nameContents, -⟩ :=
        writeString_spec config (.create 0) field.name_admitted
      obtain ⟨valueSize, valueBody, valueSized, -, valueLength, valueContents, -⟩ :=
        writeString_spec config (.create 0) field.value_admitted
      rw [stringLiteral_of_writeString nameSized nameContents, Except.ok.injEq] at nameLiteral
      rw [stringLiteral_of_writeString valueSized valueContents, Except.ok.injEq] at valueLiteral
      rw [← nameLiteral, ← valueLiteral] at fits
      simp only [List.length_cons, List.length_append] at fits
      rw [← nameLength] at nameSized
      rw [← valueLength] at valueSized
      simp only [literalField, nameSized, valueSized, ← nameLength, ← valueLength, Outcome.ok_bind]
      rw [if_neg (by omega), if_neg (by omega), if_neg (by omega), if_neg (by omega)]
      exact ⟨_, rfl⟩

/-- The loop appends the fields it counts, as it would if there were no others. -/
theorem encodeLoop_appends (room : state.bytesLeft ≤ state.out.left)
    (done : state.encodeLoop lowerBound config fields = .ok final) :
    ∃ count, final.encodedFields = state.encodedFields + count ∧
      (fields.take count).foldlM (appendField lowerBound config) state.observed =
        .ok final.observed ∧
      state.encodeLoop lowerBound config (fields.take count) = .ok final := by
  induction fields generalizing state with
  | nil =>
      cases done
      exact ⟨0, rfl, rfl, rfl⟩
  | cons field fields ih =>
      obtain ⟨result, encoded, rest⟩ := Outcome.bind_eq_ok.mp done
      cases result with
      | none =>
          cases rest
          exact ⟨0, rfl, rfl, rfl⟩
      | some next =>
          obtain ⟨bytes, round⟩ := encodeField_round room encoded
          obtain ⟨count, counted, appended, alone⟩ := ih round.room rest
          refine ⟨count + 1, ?_, ?_, ?_⟩
          · rw [counted, round.counted]
            omega
          · rw [List.take_succ_cons, List.foldlM_cons, encodeField_appends room encoded,
              Outcome.ok_bind, appended]
          · rw [List.take_succ_cons, encodeLoop, encoded, Outcome.ok_bind]
            exact alone

/-- With room for all their bytes the loop appends all its fields. -/
theorem encodeLoop_fits {bytes : Bytes} {table : IndexedDynamicTable}
    (room : state.bytesLeft ≤ state.out.left)
    (appended : fields.foldlM (appendField lowerBound config) state.observed = .ok (bytes, table))
    (fits : bytes.length ≤ state.out.stream.contents.length + state.bytesLeft) :
    ∃ final, state.encodeLoop lowerBound config fields = .ok final ∧
      final.observed = (bytes, table) ∧
      final.encodedFields = state.encodedFields + fields.length := by
  induction fields generalizing state with
  | nil => exact ⟨state, rfl, Except.ok.inj appended, rfl⟩
  | cons field fields ih =>
      rw [List.foldlM_cons] at appended
      obtain ⟨reached, first, rest⟩ := Outcome.bind_eq_ok.mp appended
      obtain ⟨here, written, same⟩ := Outcome.bind_eq_ok.mp first
      obtain ⟨tail, -, split⟩ := foldlM_appendField.mp rest
      have length := congrArg (fun reached => reached.1.length) (Except.ok.inj same)
      simp only [observed, List.length_append] at length
      rw [split, List.length_append, ← length] at fits
      obtain ⟨next, encoded⟩ := encodeField_fits written (by omega)
      obtain ⟨own, round⟩ := encodeField_round room encoded
      have accounted := round.accounted
      have contents := congrArg List.length round.contents
      have step := encodeField_appends room encoded
      rw [first, Except.ok.injEq] at step
      have joined := congrArg (fun reached => reached.1.length) step
      simp only [observed, List.length_append] at joined contents
      obtain ⟨final, ran, reaches, counted⟩ := ih round.room (by rw [← step]; exact rest)
        (by rw [split, List.length_append, ← length]; omega)
      refine ⟨final, ?_, reaches, ?_⟩
      · rw [encodeLoop, encoded, Outcome.ok_bind]
        exact ran
      · rw [counted, round.counted, List.length_cons]
        omega

end EncodeState

namespace Encoder

variable (lowerBound : LowerBound)

/-- Calls of `encode` with some limits, each on the fields not yet encoded: the buffers of
all calls, the fields that are left and the encoder after them. -/
def encodePieces (encoder : Encoder) (fields : List HeaderField) :
    List Nat → Except Failure (List Buffer × List HeaderField × Encoder)
  | [] => .ok ([], fields, encoder)
  | limit :: limits => do
      let (buffers, count, next) ← encoder.encode lowerBound fields limit
      let (more, left, after) ← next.encodePieces (fields.drop count) limits
      .ok (buffers ++ more, left, after)

variable {lowerBound} {encoder after : Encoder} {fields left : List HeaderField}
  {limit count : Nat} {buffers : List Buffer}

/-- A call appends the fields it counts, as it would if there were no others. -/
theorem encode_appends
    (encoded : encoder.encode lowerBound fields limit = .ok (buffers, count, after)) :
    after.config = encoder.config ∧
      (fields.take count).foldlM (appendField lowerBound encoder.config) ([], encoder.table) =
        .ok (buffers.flatMap Buffer.data, after.table) ∧
      encoder.encode lowerBound (fields.take count) limit = .ok (buffers, count, after) := by
  obtain ⟨final, done, rest⟩ := Outcome.bind_eq_ok.mp encoded
  cases rest
  obtain ⟨count, counted, appended, alone⟩ := EncodeState.encodeLoop_appends (Nat.le_refl _) done
  rw [Nat.zero_add] at counted
  rw [counted]
  refine ⟨rfl, appended, ?_⟩
  rw [encode, alone, Outcome.ok_bind, counted]

/-- A call with room for all bytes of its fields encodes them all. -/
theorem encode_fits {bytes : Bytes} {table : IndexedDynamicTable}
    (appended : fields.foldlM (appendField lowerBound encoder.config) ([], encoder.table) =
      .ok (bytes, table))
    (fits : bytes.length ≤ limit) :
    ∃ whole, encoder.encode lowerBound fields limit =
        .ok (whole, fields.length, { encoder with table }) ∧
      whole.flatMap Buffer.data = bytes := by
  obtain ⟨final, done, reached, counted⟩ := @EncodeState.encodeLoop_fits lowerBound encoder.config
    (encoder.start limit) fields bytes table (Nat.le_refl _) appended
    (Nat.le_trans fits (Nat.le_add_left _ _))
  obtain ⟨rfl, rfl⟩ := Prod.ext_iff.mp reached
  refine ⟨final.out.flush.1, ?_, rfl⟩
  rw [start, Nat.zero_add] at counted
  change (encoder.start limit).encodeLoop lowerBound encoder.config fields >>= _ = _
  rw [done, Outcome.ok_bind, counted]
  rfl

/-- The pieces of a list append its fields up to those that are left. -/
theorem encodePieces_appends {limits : List Nat}
    (encoded : encoder.encodePieces lowerBound fields limits = .ok (buffers, left, after)) :
    after.config = encoder.config ∧ ∃ done, fields = done ++ left ∧
      done.foldlM (appendField lowerBound encoder.config) ([], encoder.table) =
        .ok (buffers.flatMap Buffer.data, after.table) := by
  induction limits generalizing encoder fields buffers with
  | nil =>
      cases encoded
      exact ⟨rfl, [], rfl, rfl⟩
  | cons limit limits ih =>
      obtain ⟨⟨first, count, next⟩, called, rest⟩ := Outcome.bind_eq_ok.mp encoded
      obtain ⟨⟨more, remaining, final⟩, later, joined⟩ := Outcome.bind_eq_ok.mp rest
      cases joined
      obtain ⟨sameConfig, appended, -⟩ := encode_appends called
      obtain ⟨config, done, split, following⟩ := ih later
      refine ⟨config.trans sameConfig, fields.take count ++ done, ?_, ?_⟩
      · rw [List.append_assoc, ← split, List.take_append_drop]
      · rw [List.foldlM_append, appended, Outcome.ok_bind, foldlM_appendField]
        rw [sameConfig] at following
        exact ⟨_, following, List.flatMap_append⟩

/-- **Encoding in pieces.** Whatever the limits of the calls that encode a list, their
buffers hold what one call with enough room returns, and leave the same encoder. A call
that stops early does what it does on the fields it counts alone. -/
theorem encode_pieces (encoder : Encoder) (fields : List HeaderField) (limits : List Nat)
    (buffers : List Buffer) (after : Encoder)
    (consumed : encoder.encodePieces lowerBound fields limits = .ok (buffers, [], after)) :
    (∀ limit, (buffers.flatMap Buffer.data).length ≤ limit →
        ∃ whole, encoder.encode lowerBound fields limit = .ok (whole, fields.length, after) ∧
          whole.flatMap Buffer.data = buffers.flatMap Buffer.data) ∧
      ∀ (encoder : Encoder) (fields : List HeaderField) (limit count : Nat)
        (buffers : List Buffer) (after : Encoder),
        encoder.encode lowerBound fields limit = .ok (buffers, count, after) →
          encoder.encode lowerBound (fields.take count) limit = .ok (buffers, count, after) := by
  constructor
  · intro limit enough
    obtain ⟨config, done, split, appended⟩ := encodePieces_appends consumed
    rw [List.append_nil] at split
    rw [← split] at appended
    obtain ⟨whole, encoded, same⟩ := encode_fits appended enough
    refine ⟨whole, ?_, same⟩
    rw [encoded, ← config]
  · intro encoder fields limit count buffers after encoded
    exact (encode_appends encoded).2.2

/-- Three fields in three calls, the second of which encodes nothing. -/
theorem encode_pieces_three :
    ∃ buffers after, create.encodePieces .linear [⟨ascii ":method", ascii "GET", .default,
        by decide⟩, ⟨ascii "accept", ascii "text", .default, by decide⟩,
        ⟨[120], [], .default, by decide⟩] [5, 4, 20] = .ok (buffers, [], after) ∧
      ∀ limit, (buffers.flatMap Buffer.data).length ≤ limit →
        ∃ whole, create.encode .linear [⟨ascii ":method", ascii "GET", .default,
            by decide⟩, ⟨ascii "accept", ascii "text", .default, by decide⟩,
            ⟨[120], [], .default, by decide⟩] limit = .ok (whole, 3, after) ∧
          whole.flatMap Buffer.data = buffers.flatMap Buffer.data := by
  have passes : (create.encodePieces .linear [⟨ascii ":method", ascii "GET", .default,
      by decide⟩, ⟨ascii "accept", ascii "text", .default, by decide⟩,
      ⟨[120], [], .default, by decide⟩] [5, 4, 20]).toOption.any
        (fun result => result.2.1.isEmpty) = true := by
    decide +kernel
  obtain ⟨⟨buffers, left, after⟩, encoded, checks⟩ := Outcome.exists_ok_of_any passes
  obtain rfl := List.isEmpty_iff.mp checks
  exact ⟨buffers, after, encoded, (encode_pieces _ _ _ _ _ encoded).1⟩

end Encoder

end H2pp.Hpack

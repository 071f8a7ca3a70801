import H2pp.Hpack.Decoder
import H2pp.Hpack.EncoderRounds
import H2pp.Hpack.TableSync

/-! # A session of one encoder and one decoder

Header lists are encoded one after another and decoded in the same order. The two
dynamic tables change through separate code; they stay in step as long as every
field that the decoder will insert is also inserted by the encoder.
-/

namespace H2pp.Hpack

open Utils

/-- The first byte of a written command shows the command. -/
theorem decodeCmd_or (cmd : Command) : ∀ low < 2 ^ (8 - cmd.bitlen),
    decodeCmd (cmd.value ||| UInt8.ofNat low) = cmd := by
  cases cmd <;> decide

/-- A written command is read back with its integer. -/
theorem encodeCommand_read {cmd : Command} {index : Nat} {bytes : Bytes}
    (written : Integer.encodeCommand cmd index = .ok bytes) {span : Span} {tail : Bytes}
    (content : span.bytes = bytes ++ tail) :
    decodeCmd (span.mem 0) = cmd ∧
      Integer.decode cmd.bitlen span.bytes = .ok ⟨bytes.length, index⟩ := by
  have bound : index ≤ Integer.maxHpackInt := by
    by_contra large
    rw [Integer.encodeCommand, Integer.encode, if_pos (Nat.not_le.mp large)] at written
    cases written
  obtain ⟨lower, upper, free⟩ := Integer.command_free cmd
  obtain ⟨low, rest, small, encoded, read⟩ := Integer.encode_decode lower upper free bound
  cases encoded.symm.trans written
  refine ⟨by rw [Span.front_of_bytes content, decodeCmd_or cmd low small], ?_⟩
  rw [content, List.cons_append, read, List.length_cons, Nat.add_comm]

/-- A bare command byte is read as the command with a zero integer. -/
theorem decode_bare (cmd : Command) (tail : Bytes) :
    decodeCmd cmd.value = cmd ∧ Integer.decode cmd.bitlen (cmd.value :: tail) = .ok ⟨1, 0⟩ := by
  cases cmd <;> exact ⟨by decide, rfl⟩

/-- A written string that can be read back is. -/
theorem stringLiteral_read {config : EncoderConfig} {src literal : Bytes}
    (admitted : HeaderField.Admitted src.length) (sendable : Sendable config src)
    (written : stringLiteral config src = .ok literal) {span : Span} {tail : Bytes}
    (content : span.bytes = literal ++ tail) :
    StringLiteral.decode span = .ok ⟨literal.length, src⟩ := by
  obtain ⟨same, done, decoded⟩ := stringLiteral_spec config admitted
  cases done.symm.trans written
  rw [decoded span tail content, if_pos sendable]

/-- The decoder's table after a literal. -/
def afterLiteral (table : DynamicTable) (field : HeaderField) : DynamicTable :=
  if field.type = .default then table.insert field.name field.value else table

/-- The command of a literal adds its field, and inserts it when its type says so. -/
theorem runCommand_literal {table : DynamicTable} {span rest : Span} {field : HeaderField}
    (command : decodeCmd (span.mem 0) = field.command)
    (literal : Decoder.literalWithoutIndexImpl table span field.type field.command.bitlen =
      .ok (rest, field)) :
    Decoder.runCommand table span = .ok ⟨rest, afterLiteral table field, [field]⟩ := by
  rw [Decoder.runCommand, command]
  unfold HeaderField.command at literal ⊢
  unfold afterLiteral
  cases type : field.type with
  | default =>
      simp only [type] at literal
      simp only [Decoder.literalIncrementalIndexCmd, literal, Outcome.ok_bind, ↓reduceIte]
  | withoutIndex =>
      simp only [type] at literal
      simp only [Decoder.literalWithoutIndexCmd, literal, Outcome.ok_bind, reduceCtorEq, ↓reduceIte]
  | neverIndex =>
      simp only [type] at literal
      simp only [Decoder.literalNeverIndexCmd, literal, Outcome.ok_bind, reduceCtorEq, ↓reduceIte]

/-! ## What the decoder reads from a representation -/

section Reads

variable {field : HeaderField} {before : DynamicTable} {config : EncoderConfig}

/-- A decoder with table `before` reads `bytes` as the one field `field`, whatever
comes after them, and has table `after` then. -/
structure EncodeState.Reads (before after : DynamicTable) (field : HeaderField) (bytes : Bytes) :
    Prop where
  nonempty : 0 < bytes.length
  command : ∀ (span : Span) (tail : Bytes), span.bytes = bytes ++ tail →
    Decoder.runCommand before span = .ok ⟨span.subspan bytes.length, after, [field]⟩

open EncodeState (Reads)

/-- An index is read as the entry the decoder has there. -/
theorem reads_indexed {index : Nat} {bytes : Bytes}
    (written : Integer.encodeCommand .index index = .ok bytes) (positive : 0 < index)
    (isDefault : field.type = .default)
    (entry : HpackTable.atIndex before index = .ok (field.name, field.value)) :
    Reads before before field bytes := by
  refine ⟨encodeCommand_nonempty written, ?_⟩
  intro span tail content
  obtain ⟨command, decoded⟩ := encodeCommand_read written content
  have created := HeaderField.create_self field
  rw [isDefault] at created
  simp only [Decoder.runCommand, command, Decoder.indexCmd, decoded, Outcome.ok_bind, entry,
    created, show ¬ index = 0 by omega, ↓reduceIte]

/-- A literal with the index of its name is read when the decoder has the name there and
the value can be read back. -/
theorem reads_named {index : Nat} {stored nameIndex value : Bytes}
    (written : Integer.encodeCommand field.command index = .ok nameIndex)
    (literal : stringLiteral config field.value = .ok value) (positive : 0 < index)
    (entry : HpackTable.atIndex before index = .ok (field.name, stored))
    (sendable : Sendable config field.value) :
    Reads before (afterLiteral before field) field (nameIndex ++ value) := by
  refine ⟨?_, ?_⟩
  · have nonempty := encodeCommand_nonempty written
    rw [List.length_append]
    omega
  · intro span tail content
    rw [List.append_assoc] at content
    obtain ⟨command, indexRead⟩ := encodeCommand_read written content
    have valueRead := stringLiteral_read field.value_admitted sendable literal
      (show (span.subspan nameIndex.length).bytes = value ++ tail by
        rw [Span.bytes_subspan, content, List.drop_left])
    apply runCommand_literal command
    simp only [Decoder.literalWithoutIndexImpl, indexRead, Outcome.ok_bind, Decoder.literalName,
      entry, valueRead, HeaderField.create_self, Span.subspan_subspan, List.length_append,
      show ¬ index = 0 by omega, ↓reduceIte]

/-- A literal with its name is read when both strings can be read back; only a field of the
default type changes the decoder's table. -/
theorem reads_literal {name value : Bytes}
    (nameLiteral : stringLiteral config field.name = .ok name)
    (valueLiteral : stringLiteral config field.value = .ok value)
    (nameSendable : Sendable config field.name) (valueSendable : Sendable config field.value) :
    Reads before (afterLiteral before field) field (field.command.value :: (name ++ value)) := by
  refine ⟨Nat.succ_pos _, ?_⟩
  intro span tail content
  simp only [List.cons_append, List.append_assoc] at content
  obtain ⟨command, indexRead⟩ := decode_bare field.command (name ++ (value ++ tail))
  have nameRead := stringLiteral_read field.name_admitted nameSendable nameLiteral
    (show (span.subspan 1).bytes = name ++ (value ++ tail) by
      rw [Span.bytes_subspan, content, List.drop_succ_cons, List.drop_zero])
  have valueRead := stringLiteral_read field.value_admitted valueSendable valueLiteral
    (show (span.subspan (1 + name.length)).bytes = value ++ tail by
      rw [Span.bytes_subspan, content, ← List.drop_drop, List.drop_succ_cons, List.drop_zero,
        List.drop_left])
  apply runCommand_literal (by rw [Span.front_of_bytes content, command])
  rw [← content] at indexRead
  simp only [Decoder.literalWithoutIndexImpl, indexRead, Outcome.ok_bind, Decoder.literalName,
    ↓reduceIte, nameRead, valueRead, HeaderField.create_self, Span.subspan_subspan,
    List.length_cons, List.length_append]
  congr 3
  omega

end Reads

namespace EncodeState

/-- A round either breaks the loop, or it leaves the table `table` and writes
bytes that a decoder with table `before` reads as `field`. -/
def Transfers (state : EncodeState) (result : Except Failure (Option EncodeState))
    (table : IndexedDynamicTable) (before after : DynamicTable) (field : HeaderField) : Prop :=
  result = .ok none ∨ ∃ bytes next, result = .ok (some next) ∧ next.table = table ∧
    state.Wrote next bytes ∧ Reads before after field bytes

variable {state : EncodeState} {field : HeaderField} {before after : DynamicTable}
  {config : EncoderConfig} {table : IndexedDynamicTable}
  {result : Except Failure (Option EncodeState)}

/-- A round that throws nothing transfers the field if it does so when it goes on. -/
theorem transfers_of_round (returns : ∀ failure, result ≠ .error failure)
    (round : ∀ next, result = .ok (some next) → ∃ bytes, next.table = table ∧
      state.Wrote next bytes ∧ Reads before after field bytes) :
    state.Transfers result table before after field := by
  obtain ⟨goesOn, done⟩ := Outcome.exists_ok returns
  cases goesOn with
  | none => exact .inl done
  | some next =>
      obtain ⟨bytes, transferred⟩ := round next done
      exact .inr ⟨bytes, next, done, transferred⟩

/-- A fully indexed field arrives as the entry both tables have at its index. -/
theorem indexedField_transfers (room : state.bytesLeft ≤ state.out.left) {index : Nat}
    (positive : 0 < index) (bound : index ≤ Integer.maxHpackInt)
    (isDefault : field.type = .default)
    (entry : HpackTable.atIndex before index = .ok (field.name, field.value)) :
    state.Transfers (state.indexedField index) state.table before before field := by
  refine transfers_of_round
    (fun failure => indexedField_ne_error (Integer.encode_ne_error _ _ bound failure)) ?_
  intro next done
  obtain ⟨bytes, written, round⟩ := @indexedField_round state next field {} index room done
  exact ⟨bytes, round.table, round.toWrote, reads_indexed written positive isDefault entry⟩

/-- A literal with an indexed name arrives when both tables have the name at its
index and the value can be read back. -/
theorem namedField_transfers (room : state.bytesLeft ≤ state.out.left) {index : Nat}
    {stored : Bytes} (positive : 0 < index) (bound : index ≤ Integer.maxHpackInt)
    (entry : HpackTable.atIndex before index = .ok (field.name, stored))
    (sendable : Sendable config field.value) :
    state.Transfers (state.namedField config index field)
      (if field.type = .default then state.table.insert field.name field.value else state.table)
      before (afterLiteral before field) field := by
  refine transfers_of_round (fun failure => namedField_ne_error
    (Integer.encode_ne_error _ _ bound failure) (lengthWritten field.value_admitted failure)) ?_
  intro next done
  obtain ⟨nameIndex, value, written, literal, round⟩ := namedField_round room done
  have inserted := round.table
  simp only [true_and] at inserted
  exact ⟨_, inserted, round.toWrote, reads_named written literal positive entry sendable⟩

/-- A literal with its name arrives when both strings can be read back. -/
theorem literalField_transfers (room : state.bytesLeft ≤ state.out.left)
    (nameSendable : Sendable config field.name) (valueSendable : Sendable config field.value) :
    state.Transfers (state.literalField config field) state.table before
      (afterLiteral before field) field := by
  refine transfers_of_round (fun failure => literalField_ne_error
    (lengthWritten field.name_admitted failure) (lengthWritten field.value_admitted failure)) ?_
  intro next done
  obtain ⟨bytes, round⟩ := literalField_round room done
  obtain ⟨name, value, nameLiteral, valueLiteral, rfl⟩ := round.written
  exact ⟨_, round.table, round.toWrote,
    reads_literal nameLiteral valueLiteral nameSendable valueSendable⟩

end EncodeState

section Session

variable (lowerBound : LowerBound) (config : EncoderConfig)

/-- The encoder's table after a field. -/
def tableAfter (table : IndexedDynamicTable) (field : HeaderField) : IndexedDynamicTable :=
  let index := HpackTable.fieldIndex lowerBound table field.name field.value
  if field.type = .default ∧ index.1 ≠ -1 ∧ ¬ index.2 then table.insert field.name field.value
  else table

/-- A field of the default type has a name of the static table, and every string
that is not replaced by an index can be read back. -/
def Meets (table : IndexedDynamicTable) (field : HeaderField) : Prop :=
  (field.type = .default → StaticTable.Known field.name) ∧
    (field.type = .default ∧ (HpackTable.fieldIndex lowerBound table field.name field.value).2 ∨
      Sendable config field.value) ∧
    (¬ StaticTable.Known field.name → Sendable config field.name)

instance (table : IndexedDynamicTable) (field : HeaderField) :
    Decidable (Meets lowerBound config table field) :=
  inferInstanceAs (Decidable (_ ∧ _ ∧ _))

/-- Every field of a list meets the condition when its turn comes. -/
def AllMeet : IndexedDynamicTable → List HeaderField → Prop
  | _, [] => True
  | table, field :: fields =>
      Meets lowerBound config table field ∧ AllMeet (tableAfter lowerBound table field) fields

instance AllMeet.decidable : (table : IndexedDynamicTable) → (fields : List HeaderField) →
    Decidable (AllMeet lowerBound config table fields)
  | _, [] => isTrue trivial
  | table, field :: fields =>
      have := AllMeet.decidable (tableAfter lowerBound table field) fields
      inferInstanceAs (Decidable (_ ∧ _))

variable {lowerBound config}

section Step

variable {state : EncodeState} {before : DynamicTable} {field : HeaderField}

variable (config) in
/-- What a round does with an index that was found. -/
theorem encodeField_found {index : Nat} {hasValue : Bool} (small : index < 2 ^ 31)
    (found : HpackTable.fieldIndex lowerBound state.table field.name field.value =
      ((index : Int), hasValue)) :
    state.encodeField lowerBound config field =
        (if field.type = .default ∧ hasValue then state.indexedField index
          else state.namedField config index field) ∧
      tableAfter lowerBound state.table field =
        (if field.type = .default ∧ ¬ hasValue then state.table.insert field.name field.value
          else state.table) := by
  have converted : ((index : Int) % 2 ^ 32).toNat = index := by omega
  have present : ¬ (index : Int) = -1 := by omega
  rw [EncodeState.encodeField, tableAfter, found]
  simp only [converted, present, ne_eq, not_false_eq_true, true_and, ↓reduceIte]
  by_cases isDefault : field.type = .default
  · simp only [isDefault, not_true_eq_false, ↓reduceIte, true_and, and_self]
  · simp only [isDefault, not_false_eq_true, Bool.false_eq_true, ↓reduceIte, false_and, and_self]

/-- A field whose name is in the static table arrives. -/
theorem encodeField_known (linked : Linked state.table before)
    (room : state.bytesLeft ≤ state.out.left)
    (bound : before.tableSize + field.hpackSize < 2 ^ 63)
    (known : StaticTable.Known field.name)
    (value : field.type = .default ∧
        (HpackTable.fieldIndex lowerBound state.table field.name field.value).2 ∨
      Sendable config field.value) :
    ∃ after, state.Transfers (state.encodeField lowerBound config field)
        (tableAfter lowerBound state.table field) before after field ∧
      Linked (tableAfter lowerBound state.table field) after ∧
      after.tableSize ≤ before.tableSize + field.hpackSize := by
  have few := linked.length_le
  have static : StaticTable.size = 61 := rfl
  have limit : Integer.maxHpackInt = 16777200 := rfl
  obtain ⟨index, hasValue, stored, found, positive, small, entry, same⟩ :=
    HpackTable.fieldIndex_known lowerBound state.table (by omega) known field.value
  obtain ⟨round, table⟩ := encodeField_found config (by omega) found
  have arrives := linked.inStep.atIndex_eq entry
  rw [found] at value
  rw [round, table]
  by_cases indexed : field.type = .default ∧ hasValue
  · rw [if_pos indexed, if_neg fun literal => literal.2 indexed.2]
    rw [same indexed.2] at arrives
    exact ⟨before, EncodeState.indexedField_transfers room positive (by omega) indexed.1 arrives,
      linked, Nat.le_add_right _ _⟩
  · rw [if_neg indexed]
    have literal := EncodeState.namedField_transfers room positive (by omega) arrives
      (value.resolve_left indexed)
    by_cases isDefault : field.type = .default
    · have notIndexed : ¬ hasValue := fun has => indexed ⟨isDefault, has⟩
      rw [if_pos isDefault, afterLiteral, if_pos isDefault] at literal
      rw [if_pos ⟨isDefault, notIndexed⟩]
      exact ⟨_, literal, linked.insert known bound, before.insert_tableSize_le _ _⟩
    · rw [if_neg isDefault, afterLiteral, if_neg isDefault] at literal
      rw [if_neg fun inserted => isDefault inserted.1]
      exact ⟨before, literal, linked, Nat.le_add_right _ _⟩

/-- **One field.** A field that meets the condition arrives, and the tables stay
linked. -/
theorem encodeField_transfers (linked : Linked state.table before)
    (room : state.bytesLeft ≤ state.out.left)
    (bound : before.tableSize + field.hpackSize < 2 ^ 63)
    (meets : Meets lowerBound config state.table field) :
    ∃ after, state.Transfers (state.encodeField lowerBound config field)
        (tableAfter lowerBound state.table field) before after field ∧
      Linked (tableAfter lowerBound state.table field) after ∧
      after.tableSize ≤ before.tableSize + field.hpackSize := by
  obtain ⟨isKnown, value, name⟩ := meets
  by_cases known : StaticTable.Known field.name
  · exact encodeField_known linked room bound known value
  · have few := linked.length_le
    have notDefault : ¬ field.type = .default := fun isDefault => known (isKnown isDefault)
    have absent := HpackTable.fieldIndex_unknown lowerBound state.table (by omega) linked.names
      known field.value
    have unchanged : tableAfter lowerBound state.table field = state.table := by
      rw [tableAfter, if_neg fun inserted => notDefault inserted.1]
    have literal : state.Transfers (state.literalField config field) state.table before
        (afterLiteral before field) field :=
      EncodeState.literalField_transfers room (name known)
        (value.resolve_left fun indexed => notDefault indexed.1)
    rw [afterLiteral, if_neg notDefault] at literal
    rw [unchanged]
    refine ⟨before, ?_, linked, Nat.le_add_right _ _⟩
    rw [EncodeState.encodeField, absent]
    simp only [ne_eq, not_true_eq_false, false_and, ↓reduceIte]
    exact literal

end Step

/-- The sizes of some fields together. -/
def fieldsSize (fields : List HeaderField) : Nat := (fields.map HeaderField.hpackSize).sum

/-- The size is summed field by field. -/
@[simp] theorem fieldsSize_cons (field : HeaderField) (fields : List HeaderField) :
    fieldsSize (field :: fields) = field.hpackSize + fieldsSize fields := by
  rw [fieldsSize, List.map_cons, List.sum_cons, fieldsSize]

/-- **One header list.** When all fields of a list were encoded, a decoder reads
exactly the list from what was written, and the tables are linked afterwards. -/
theorem encodeLoop_decodeLoop {state final : EncodeState} {before : DynamicTable}
    {fields : List HeaderField} (linked : Linked state.table before)
    (room : state.bytesLeft ≤ state.out.left)
    (bound : before.tableSize + fieldsSize fields < 2 ^ 63)
    (meet : AllMeet lowerBound config state.table fields)
    (encoded : state.encodeLoop lowerBound config fields = .ok final)
    (complete : final.encodedFields = state.encodedFields + fields.length) :
    ∃ bytes after, final.out.stream.contents = state.out.stream.contents ++ bytes ∧
      Linked final.table after ∧ after.tableSize ≤ before.tableSize + fieldsSize fields ∧
      ∀ (fuel : Nat) (span : Span) (earlier : List HeaderField), span.bytes = bytes →
        bytes.length ≤ fuel →
          Decoder.decodeLoop fuel before span earlier = (after, .ok (earlier ++ fields)) := by
  induction fields generalizing state before with
  | nil =>
      cases encoded
      refine ⟨[], before, (List.append_nil _).symm, linked, Nat.le_add_right _ _, ?_⟩
      intro fuel span earlier content _
      have empty : span.size = 0 := by rw [← Span.length_bytes, content, List.length_nil]
      cases fuel with
      | zero => rw [Decoder.decodeLoop, List.append_nil]
      | succ fuel => rw [Decoder.decodeLoop, if_pos empty, List.append_nil]
  | cons field fields ih =>
      rw [fieldsSize_cons] at bound ⊢
      obtain ⟨meets, meetRest⟩ := meet
      obtain ⟨middle, transfers, linkedNext, grown⟩ :=
        encodeField_transfers linked room (by omega) meets
      rw [EncodeState.encodeLoop] at encoded
      rcases transfers with broke | ⟨first, next, done, table, wrote, reads⟩
      · -- a round that breaks the loop leaves the field uncounted
        rw [broke] at encoded
        cases encoded
        rw [List.length_cons] at complete
        omega
      · rw [done] at encoded
        rw [← table] at linkedNext meetRest
        obtain ⟨rest, after, contents, linkedFinal, size, decodes⟩ := ih linkedNext wrote.room
          (by omega) meetRest encoded
          (by rw [complete, wrote.counted, List.length_cons]; omega)
        refine ⟨first ++ rest, after, ?_, linkedFinal, by omega, ?_⟩
        · rw [contents, wrote.contents, List.append_assoc]
        · intro fuel span earlier content enough
          have positive := reads.nonempty
          rw [List.length_append] at enough
          have size : span.size = first.length + rest.length := by
            rw [← Span.length_bytes, content, List.length_append]
          cases fuel with
          | zero => omega
          | succ fuel =>
              rw [Decoder.decodeLoop, if_neg (by omega), reads.command span rest content]
              simp only
              rw [decodes fuel (span.subspan first.length) (earlier ++ [field])
                (by rw [Span.bytes_subspan, content, List.drop_left]) (by omega),
                List.append_assoc, List.singleton_append]

/-- A header list, the size limit it is encoded with, and the memory around the
encoded block when it is decoded. -/
structure Block where
  fields : List HeaderField
  sizeLimit : Nat
  around : Int → UInt8

variable (lowerBound)

/-- Encode the lists one after another and decode each block when it is there. -/
def session : Encoder → Decoder → List Block → Except Failure (List (List HeaderField))
  | _, _, [] => .ok []
  | encoder, decoder, block :: blocks => do
      let (buffers, _, encoder) ← encoder.encode lowerBound block.fields block.sizeLimit
      let (decoder, result) :=
        decoder.decode (Span.ofBytes block.around (buffers.flatMap Buffer.data))
      let header ← result
      let headers ← session encoder decoder blocks
      .ok (header :: headers)

/-- Every list of a session fits its size limit, and all fields meet the condition
when their turn comes. -/
def Admissible : Encoder → List Block → Prop
  | _, [] => True
  | encoder, block :: blocks =>
      AllMeet lowerBound encoder.config encoder.table block.fields ∧
        match encoder.encode lowerBound block.fields block.sizeLimit with
        | .ok (_, encodedFields, encoder) =>
            encodedFields = block.fields.length ∧ Admissible encoder blocks
        | .error _ => False

instance Admissible.decidable : (encoder : Encoder) → (blocks : List Block) →
    Decidable (Admissible lowerBound encoder blocks)
  | _, [] => isTrue trivial
  | encoder, block :: blocks =>
      have : Decidable (match encoder.encode lowerBound block.fields block.sizeLimit with
          | .ok (_, encodedFields, encoder) =>
              encodedFields = block.fields.length ∧ Admissible lowerBound encoder blocks
          | .error _ => False) :=
        match encoder.encode lowerBound block.fields block.sizeLimit with
        | .ok (_, _, encoder) =>
            have := Admissible.decidable encoder blocks
            inferInstanceAs (Decidable (_ ∧ _))
        | .error _ => isFalse not_false
      inferInstanceAs (Decidable (_ ∧ _))

variable {lowerBound}

/-- From linked tables, an admissible session returns its lists. -/
theorem session_of_linked {encoder : Encoder} {decoder : Decoder} {blocks : List Block}
    (linked : Linked encoder.table decoder.table)
    (bound : decoder.table.tableSize + (blocks.map fun block => fieldsSize block.fields).sum <
      2 ^ 63)
    (admissible : Admissible lowerBound encoder blocks) :
    session lowerBound encoder decoder blocks = .ok (blocks.map Block.fields) := by
  induction blocks generalizing encoder decoder with
  | nil => rfl
  | cons block blocks ih =>
      rw [List.map_cons, List.sum_cons] at bound
      obtain ⟨meet, rest⟩ := admissible
      cases run : EncodeState.encodeLoop lowerBound encoder.config
          ⟨.create block.sizeLimit, encoder.table, block.sizeLimit, 0⟩ block.fields with
      | error failure => simp only [Encoder.encode, run, Outcome.error_bind] at rest
      | ok final =>
          have encoded : encoder.encode lowerBound block.fields block.sizeLimit =
              .ok (final.out.flush.1, final.encodedFields, ⟨encoder.config, final.table⟩) := by
            rw [Encoder.encode, run]
            rfl
          rw [encoded] at rest
          obtain ⟨complete, admissibleRest⟩ := rest
          obtain ⟨bytes, after, contents, linkedNext, grown, decodes⟩ :=
            encodeLoop_decodeLoop linked (Nat.le_refl _) (by omega) meet run
              (by rw [complete, Nat.zero_add])
          have content : final.out.flush.1.flatMap Buffer.data = bytes := by
            rw [EncoderStream.flush, Streambuf.flush_contents, contents]
            rfl
          have decoded : decoder.decode (Span.ofBytes block.around bytes) =
              (⟨after⟩, .ok block.fields) := by
            rw [Decoder.decode, decodes _ _ [] (Span.bytes_ofBytes _ _)
              (by rw [← Span.length_bytes, Span.bytes_ofBytes]), List.nil_append]
          have later : session lowerBound ⟨encoder.config, final.table⟩ ⟨after⟩ blocks =
              .ok (blocks.map Block.fields) :=
            ih linkedNext (by simp only; omega) admissibleRest
          simp only [session, encoded, Outcome.ok_bind, content, decoded, later, List.map_cons]

variable (lowerBound)

/-- **Session round trip.** A new encoder and a new decoder return every header
list of an admissible session: the same fields in the same order with the same
types, and nothing is thrown. -/
theorem session_round_trip (config : EncoderConfig) (blocks : List Block)
    (bound : (blocks.map fun block => fieldsSize block.fields).sum < 2 ^ 63)
    (admissible : Admissible lowerBound (Encoder.create.setConfig config) blocks) :
    session lowerBound (Encoder.create.setConfig config) .create blocks =
      .ok (blocks.map Block.fields) := by
  apply session_of_linked Linked.create _ admissible
  change 0 + _ < 2 ^ 63
  rw [Nat.zero_add]
  exact bound

end Session

/-- Two blocks, the second with a field that the first has put into the table. -/
theorem session_round_trip_two_requests :
    session .linear Encoder.create .create
        [⟨[⟨ascii ":method", ascii "GET", .default, by decide +kernel⟩,
            ⟨ascii ":path", ascii "/a", .default, by decide +kernel⟩,
            ⟨ascii "x", ascii "y", .neverIndex, by decide +kernel⟩], 64, fun _ => 0⟩,
          ⟨[⟨ascii ":path", ascii "/a", .default, by decide +kernel⟩], 64, fun _ => 0xff⟩] =
      .ok [[⟨ascii ":method", ascii "GET", .default, by decide +kernel⟩,
          ⟨ascii ":path", ascii "/a", .default, by decide +kernel⟩,
          ⟨ascii "x", ascii "y", .neverIndex, by decide +kernel⟩],
        [⟨ascii ":path", ascii "/a", .default, by decide +kernel⟩]] :=
  session_round_trip .linear {} _ (by decide +kernel) (by decide +kernel)

/-- A field with a name of the static table, one with a new name, and the first
one again. -/
def newNameBlock : Block where
  fields := [⟨ascii ":path", ascii "/a", .default, by decide +kernel⟩,
    ⟨ascii "x", ascii "y", .default, by decide +kernel⟩,
    ⟨ascii ":path", ascii "/a", .default, by decide +kernel⟩]
  sizeLimit := 4096
  around := fun _ => 0

/-- The field with the new name is inserted by the decoder alone, and the index
sent for the repeated field leads to it. -/
theorem session_new_name :
    session .linear Encoder.create .create [newNameBlock] =
        .ok [[⟨ascii ":path", ascii "/a", .default, by decide +kernel⟩,
          ⟨ascii "x", ascii "y", .default, by decide +kernel⟩,
          ⟨ascii "x", ascii "y", .default, by decide +kernel⟩]] ∧
      session .linear Encoder.create .create [newNameBlock] ≠ .ok [newNameBlock.fields] := by
  decide +kernel

end H2pp.Hpack

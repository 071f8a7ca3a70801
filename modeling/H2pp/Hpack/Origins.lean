import H2pp.Hpack.EncoderRounds
import H2pp.Hpack.TableBound

/-! # Where the entries of the tables come from

Only fields of type `DEFAULT` are put into a table: on the encoder's side by a literal
with an indexed name, on the decoder's by a literal with incremental indexing. A field
of another type is always written as a literal of its own kind, also when a table has
an equal entry.
-/

namespace H2pp.Hpack

open Utils

/-- The record has the name and the value of a field of type `DEFAULT` in the list. -/
def StemsFrom (fields : List HeaderField) (record : Record) : Prop :=
  ∃ field ∈ fields, field.type = .default ∧ field.name = record.name ∧ field.value = record.value

/-- The bytes represent the field, and not as a fully indexed one unless its type is
`DEFAULT`. -/
def Shows (config : EncoderConfig) (bytes : Bytes) (field : HeaderField) : Prop :=
  ∃ form : Representation, form.Written config field bytes ∧
    (form = .indexed → field.type = .default)

private theorem StemsFrom.mono {fields more : List HeaderField} {record : Record}
    (stems : StemsFrom fields record) (subset : fields ⊆ more) : StemsFrom more record := by
  obtain ⟨field, member, same⟩ := stems
  exact ⟨field, subset member, same⟩

/-! ## The encoder -/

namespace IndexedDynamicTable

/-- A record after an insertion is the new one or was there before. -/
theorem mem_insert {dyn : IndexedDynamicTable} {name value : Bytes} {record : Record}
    (member : record ∈ (dyn.insert name value).table) :
    name = record.name ∧ value = record.value ∨ record ∈ dyn.table := by
  rcases List.mem_cons.mp member with rfl | old
  · exact .inl ⟨rfl, rfl⟩
  · exact .inr (List.mem_of_mem_take old)

/-- The encoder's table as its constructor sizes it: not larger than its maximum size, or
with a single record. -/
structure Compact (dyn : IndexedDynamicTable) : Prop where
  maxSize : dyn.hpackMaxSize = 4096
  small : dyn.tableSize ≤ 4096 ∨ dyn.table.length = 1 ∧ dyn.tableSize < 2 ^ 24

private theorem Compact.insert {dyn : IndexedDynamicTable} (compact : dyn.Compact)
    (field : HeaderField) :
    (dyn.insert field.name field.value).Compact := by
  have admitted := HeaderField.length_lt field.admitted
  have bound : dyn.tableSize < 2 ^ 64 := by
    rcases compact.small with small | ⟨-, small⟩ <;> omega
  refine ⟨compact.maxSize, ?_⟩
  rcases dyn.insert_compact field.name field.value bound with small | ⟨single, size⟩
  · exact .inl (compact.maxSize ▸ small)
  · exact .inr ⟨single, by omega⟩

private theorem Compact.length_le {dyn : IndexedDynamicTable} (compact : dyn.Compact) :
    dyn.table.length ≤ 128 := by
  have total := length_le_totalSize dyn.table
  rw [← dyn.sized] at total
  rcases compact.small with small | ⟨single, -⟩ <;> omega

end IndexedDynamicTable

/-- An index that a lookup returns is at most the number of all entries. -/
theorem HpackTable.fieldIndex_le (lowerBound : LowerBound) (dyn : IndexedDynamicTable)
    (name value : Bytes) (few : dyn.table.length < 2 ^ 31)
    (present : (fieldIndex lowerBound dyn name value).1 ≠ -1) :
    ∃ index : Nat, (fieldIndex lowerBound dyn name value).1 = index ∧
      index ≤ StaticTable.size + dyn.table.length := by
  by_cases known : StaticTable.Known name
  · obtain ⟨index, hasValue, stored, found, -, bound, -⟩ :=
      fieldIndex_known lowerBound dyn few known value
    exact ⟨index, by rw [found], bound⟩
  · rw [fieldIndex, StaticTable.fieldIndex_unknown known] at present ⊢
    simp only [Bool.false_eq_true, ↓reduceIte, ne_eq, not_true_eq_false] at present ⊢
    rcases dyn.fieldIndex_cases lowerBound name value few with
      absent | ⟨position, record, hasValue, dynamic, found, -, -⟩
    · simp [absent] at present
    · have inside : position < dyn.table.length := (List.getElem?_eq_some_iff.mp found).1
      rw [dynamic]
      cases hasValue with
      | true => exact ⟨position + 1 + StaticTable.size, by simp, by omega⟩
      | false => exact ⟨position + 1, by simp, by omega⟩

namespace EncodeState

variable {lowerBound : LowerBound} {config : EncoderConfig} {state : EncodeState}

/-- With few entries in the table, nothing is thrown. -/
theorem encodeField_returns (compact : state.table.Compact) (field : HeaderField) :
    ∃ result, state.encodeField lowerBound config field = .ok result := by
  refine Outcome.exists_ok fun failure => encodeField_ne_error ?_
    (lengthWritten field.name_admitted failure) (lengthWritten field.value_admitted failure)
  intro present cmd
  have few := compact.length_le
  have static : StaticTable.size = 61 := rfl
  have limit : Integer.maxHpackInt = 16777200 := rfl
  obtain ⟨index, found, bound⟩ := HpackTable.fieldIndex_le lowerBound state.table field.name
    field.value (by omega) present
  rw [found]
  exact Integer.encode_ne_error _ _ (by omega) failure

/-- Only a field of type `DEFAULT` is fully indexed. -/
theorem representation_indexed {table : IndexedDynamicTable} {field : HeaderField}
    (indexed : representation lowerBound table field = .indexed) : field.type = .default := by
  simp only [representation] at indexed
  split at indexed
  · cases indexed
  · split at indexed
    · rename_i isDefault
      exact isDefault.1
    · cases indexed

/-- One round: what it writes shows the type of its field, and what it inserts stems
from the field. -/
theorem Round.origin {next : EncodeState} {field : HeaderField} {bytes : Bytes}
    (round : Round config (representation lowerBound state.table field) field state next bytes) :
    Shows config bytes field ∧
      ∀ record ∈ next.table.table, record ∈ state.table.table ∨ StemsFrom [field] record := by
  constructor
  · exact ⟨_, round.written, representation_indexed⟩
  · intro record member
    rw [round.table] at member
    split at member
    · rename_i inserted
      rcases IndexedDynamicTable.mem_insert member with ⟨name, value⟩ | old
      · exact .inr ⟨field, List.mem_singleton_self _, inserted.2, name, value⟩
      · exact .inl old
    · exact .inl member

/-- The loop of `encode` returns, has written one representation for each field it has
counted, and every record of its table was there before or stems from those fields. -/
theorem encodeLoop_origin (fields : List HeaderField) (compact : state.table.Compact)
    (room : state.bytesLeft ≤ state.out.left) :
    ∃ final encoded left blocks,
      state.encodeLoop lowerBound config fields = .ok final ∧ fields = encoded ++ left ∧
      final.encodedFields = state.encodedFields + encoded.length ∧ final.table.Compact ∧
      final.out.stream.contents = state.out.stream.contents ++ blocks.flatten ∧
      List.Forall₂ (Shows config) blocks encoded ∧
      ∀ record ∈ final.table.table, record ∈ state.table.table ∨ StemsFrom encoded record := by
  induction fields generalizing state with
  | nil => exact ⟨state, [], [], [], rfl, rfl, rfl, compact, by simp, .nil, fun _ => .inl⟩
  | cons field fields ih =>
      obtain ⟨result, done⟩ := @encodeField_returns lowerBound config state compact field
      cases result with
      | none =>
          refine ⟨state, [], field :: fields, [], ?_, rfl, rfl, compact, by simp, .nil,
            fun _ => .inl⟩
          rw [encodeLoop, done, Outcome.ok_bind]
      | some next =>
          obtain ⟨bytes, round⟩ := encodeField_round room done
          obtain ⟨shows, before⟩ := round.origin
          have compactNext : next.table.Compact := by
            rw [round.table]
            split
            · exact compact.insert field
            · exact compact
          obtain ⟨final, encoded, left, blocks, ran, rfl, count, compactFinal, contents, shown,
            later⟩ := ih compactNext round.room
          refine ⟨final, field :: encoded, left, bytes :: blocks, ?_, rfl, ?_, compactFinal, ?_,
            .cons shows shown, ?_⟩
          · rw [encodeLoop, done, Outcome.ok_bind]
            exact ran
          · rw [count, round.counted, List.length_cons]
            omega
          · rw [contents, round.contents, List.flatten_cons, List.append_assoc]
          · intro record member
            rcases later record member with old | new
            · exact (before record old).imp_right fun stems =>
                stems.mono (List.cons_subset_cons field (List.nil_subset encoded))
            · exact .inr (new.mono (List.subset_cons_self _ _))

end EncodeState

/-- A call of the encoder's interface. -/
inductive EncoderCall
  | setConfig (config : EncoderConfig)
  | encode (fields : List HeaderField) (sizeLimit : Nat)

/-- What a call of `encode` has returned: the buffers, and the fields they hold. -/
structure Sent where
  config : EncoderConfig
  buffers : List Buffer
  fields : List HeaderField

/-- The buffers hold one representation for each field, none of them fully indexed but
those of fields of type `DEFAULT`. -/
def Sent.Shown (sent : Sent) : Prop :=
  ∃ blocks, sent.buffers.flatMap Buffer.data = List.flatten blocks ∧
    List.Forall₂ (Shows sent.config) blocks sent.fields

namespace Encoder

/-- A sequence of calls, with what each call of `encode` has returned. -/
def calls (lowerBound : LowerBound) : Encoder → List EncoderCall →
    Except Failure (List Sent × Encoder)
  | encoder, [] => .ok ([], encoder)
  | encoder, .setConfig config :: rest => calls lowerBound (encoder.setConfig config) rest
  | encoder, .encode fields sizeLimit :: rest => do
      let (buffers, encodedFields, next) ← encoder.encode lowerBound fields sizeLimit
      let (sent, last) ← calls lowerBound next rest
      .ok (⟨encoder.config, buffers, fields.take encodedFields⟩ :: sent, last)

variable {lowerBound : LowerBound}

private theorem encode_origin {encoder : Encoder} (compact : encoder.table.Compact)
    (fields : List HeaderField) (sizeLimit : Nat) :
    ∃ buffers count after, encoder.encode lowerBound fields sizeLimit = .ok (buffers, count, after) ∧
      after.table.Compact ∧ Sent.Shown ⟨encoder.config, buffers, fields.take count⟩ ∧
      ∀ record ∈ after.table.table,
        record ∈ encoder.table.table ∨ StemsFrom (fields.take count) record := by
  obtain ⟨final, encoded, left, blocks, ran, rfl, count, compactFinal, contents, shown, origin⟩ :=
    @EncodeState.encodeLoop_origin lowerBound encoder.config (encoder.start sizeLimit) fields
      compact (Nat.le_refl _)
  have first : (encoded ++ left).take final.encodedFields = encoded := by
    rw [count]
    exact List.take_left' (Nat.zero_add _).symm
  refine ⟨final.out.flush.1, final.encodedFields, { encoder with table := final.table },
    Outcome.bind_eq_ok.mpr ⟨final, ran, rfl⟩, compactFinal, ?_, ?_⟩
  · rw [first]
    exact ⟨blocks, contents, shown⟩
  · rw [first]
    exact origin

private theorem calls_origin {encoder : Encoder} (compact : encoder.table.Compact)
    (requests : List EncoderCall) :
    ∃ sent last, encoder.calls lowerBound requests = .ok (sent, last) ∧
      (∀ call ∈ sent, call.Shown) ∧
      ∀ record ∈ last.table.table,
        record ∈ encoder.table.table ∨ StemsFrom (sent.flatMap Sent.fields) record := by
  induction requests generalizing encoder with
  | nil => exact ⟨[], encoder, rfl, nofun, fun _ => .inl⟩
  | cons request rest ih =>
      cases request with
      | setConfig config => exact @ih (encoder.setConfig config) compact
      | encode fields sizeLimit =>
          obtain ⟨buffers, count, after, encoded, compactAfter, shown, before⟩ :=
            @encode_origin lowerBound encoder compact fields sizeLimit
          obtain ⟨sent, last, ran, allShown, later⟩ := ih compactAfter
          refine ⟨⟨encoder.config, buffers, fields.take count⟩ :: sent, last, ?_, ?_, ?_⟩
          · simp only [calls, encoded, Outcome.ok_bind, ran]
          · exact List.forall_mem_cons.mpr ⟨shown, allShown⟩
          · intro record member
            rw [List.flatMap_cons]
            rcases later record member with old | new
            · exact (before record old).imp_right fun stems =>
                stems.mono (List.subset_append_left _ _)
            · exact .inr (new.mono (List.subset_append_right _ _))

end Encoder

/-! ## The decoder -/

namespace Decoder

/-- The fields that a block's literals with incremental indexing have added. -/
def incrementalFields : Nat → DynamicTable → Span → List HeaderField
  | 0, _, _ => []
  | fuel + 1, table, src =>
      if src.size = 0 then []
      else
        match runCommand table src with
        | .error _ => []
        | .ok next =>
            (if decodeCmd (src.mem 0) = .literalIncrementalIndex then next.added else []) ++
              incrementalFields fuel next.table next.src

/-- The fields that the literals with incremental indexing of some blocks have added. -/
def indexedFields : Decoder → List Span → List HeaderField
  | _, [] => []
  | decoder, block :: blocks =>
      incrementalFields block.size decoder.table block ++
        indexedFields (decoder.decode block).1 blocks

private theorem literal_type {table : DynamicTable} {src rest : Span} {type : IndexType}
    {bits : Nat}
    {field : HeaderField} (read : literalWithoutIndexImpl table src type bits = .ok (rest, field)) :
    field.type = type := by
  obtain ⟨index, -, read⟩ := Outcome.bind_eq_ok.mp read
  obtain ⟨⟨name, src⟩, -, read⟩ := Outcome.bind_eq_ok.mp read
  obtain ⟨value, -, read⟩ := Outcome.bind_eq_ok.mp read
  obtain ⟨created, create, read⟩ := Outcome.bind_eq_ok.mp read
  cases read
  unfold HeaderField.create at create
  split at create
  · cases create
    rfl
  · cases create

/-- A record after a command was there before, or the command is a literal with
incremental indexing and the record stems from the field it has added. -/
theorem runCommand_origin {table : DynamicTable} {src : Span} {next : Progress}
    (ran : runCommand table src = .ok next) {record : Record} (member : record ∈ next.table.table) :
    record ∈ table.table ∨
      decodeCmd (src.mem 0) = .literalIncrementalIndex ∧ StemsFrom next.added record := by
  rw [runCommand] at ran
  cases command : decodeCmd (src.mem 0) with
  | index =>
      rw [command] at ran
      exact .inl (indexCmd_table ran ▸ member)
  | changeTableSize =>
      rw [command] at ran
      obtain ⟨size, -, ran⟩ := Outcome.bind_eq_ok.mp ran
      cases ran
      exact .inl (List.mem_of_mem_take member)
  | literalIncrementalIndex =>
      rw [command] at ran
      obtain ⟨⟨rest, field⟩, read, ran⟩ := Outcome.bind_eq_ok.mp ran
      cases ran
      rcases List.mem_cons.mp member with rfl | old
      · exact .inr ⟨rfl, field, List.mem_singleton_self _, literal_type read, rfl, rfl⟩
      · exact .inl (List.mem_of_mem_take old)
  | literalWithoutIndex =>
      rw [command] at ran
      obtain ⟨⟨rest, field⟩, -, ran⟩ := Outcome.bind_eq_ok.mp ran
      cases ran
      exact .inl member
  | literalNeverIndex =>
      rw [command] at ran
      obtain ⟨⟨rest, field⟩, -, ran⟩ := Outcome.bind_eq_ok.mp ran
      cases ran
      exact .inl member

private theorem decodeLoop_origin {fuel : Nat} {table : DynamicTable} {src : Span}
    {fields : List HeaderField} {record : Record}
    (member : record ∈ (decodeLoop fuel table src fields).1.table) :
    record ∈ table.table ∨ StemsFrom (incrementalFields fuel table src) record := by
  induction fuel generalizing table src fields with
  | zero => exact .inl member
  | succ fuel ih =>
      rw [decodeLoop] at member
      rw [incrementalFields]
      by_cases empty : src.size = 0
      · rw [if_pos empty] at member
        exact .inl member
      · rw [if_neg empty] at member ⊢
        cases ran : runCommand table src with
        | error failure =>
            rw [ran] at member
            exact .inl member
        | ok next =>
            rw [ran] at member
            rcases ih member with old | new
            · refine (runCommand_origin ran old).imp_right fun origin => ?_
              obtain ⟨command, stems⟩ := origin
              simp only [if_pos command]
              exact stems.mono (List.subset_append_left _ _)
            · exact .inr (new.mono (List.subset_append_right _ _))

private theorem decodeBlocks_origin {decoder : Decoder} {blocks : List Span} {record : Record}
    (member : record ∈ (decoder.decodeBlocks blocks).table.table) :
    record ∈ decoder.table.table ∨ StemsFrom (decoder.indexedFields blocks) record := by
  induction blocks generalizing decoder with
  | nil => exact .inl member
  | cons block blocks ih =>
      rcases @ih (decoder.decode block).1 member with old | new
      · exact (decodeLoop_origin old).imp_right fun stems =>
          stems.mono (List.subset_append_left _ _)
      · exact .inr (new.mono (List.subset_append_right _ _))

end Decoder

/-- **Sensitive fields stay out of the tables.** Any calls of a new encoder return; every
entry of its table is then the name and the value of an encoded field of type `DEFAULT`,
and no field of another type was written as a fully indexed one. After any blocks, every
entry of a new decoder's table was added by a literal with incremental indexing, as a
field of type `DEFAULT`. -/
theorem tables_hold_default_fields (lowerBound : LowerBound) (requests : List EncoderCall)
    (blocks : List Span) :
    (∃ sent last, Encoder.create.calls lowerBound requests = .ok (sent, last) ∧
        (∀ record ∈ last.table.table, StemsFrom (sent.flatMap Sent.fields) record) ∧
        ∀ call ∈ sent, call.Shown) ∧
      ∀ record ∈ (Decoder.create.decodeBlocks blocks).table.table,
        StemsFrom (Decoder.create.indexedFields blocks) record := by
  constructor
  · have compact : Encoder.create.table.Compact := ⟨rfl, .inl (by decide)⟩
    obtain ⟨sent, last, ran, shown, origin⟩ := @Encoder.calls_origin lowerBound _ compact requests
    exact ⟨sent, last, ran,
      fun record member => (origin record member).resolve_left List.not_mem_nil, shown⟩
  · exact fun record member =>
      (Decoder.decodeBlocks_origin member).resolve_left List.not_mem_nil

end H2pp.Hpack

import H2pp.Hpack.Decoder

/-! # Representations

A header block is a sequence of representations. How long a representation is, and
where its string literals are, can be seen from its bytes alone, and does not change
when more bytes follow. What a string literal holds is read from memory, though: the
Huffman reader looks behind the end of a string that is not padded as it should be.
-/

namespace H2pp.Hpack

open Utils

/-- Where the string literal at `start` ends, if all of it is there. -/
def stringEnd (bytes : Bytes) (start : Nat) : Option Nat :=
  match Integer.decode 1 (bytes.drop start) with
  | .error _ => none
  | .ok length =>
      if start + length.usedBytes + length.value ≤ bytes.length then
        some (start + length.usedBytes + length.value)
      else none

/-- Where the string literals of a representation are, and how long it is. -/
structure Layout where
  literals : List Nat
  length : Nat
  deriving DecidableEq, Repr

/-- The commands that are followed by strings. -/
def Command.isLiteral : Command → Bool
  | .index => false
  | .changeTableSize => false
  | _ => true

/-- The layout of a literal, after its index. -/
def literalLayout (bytes : Bytes) (index : Integer.DecodedResult) : Option Layout :=
  if index.value = 0 then do
    let value ← stringEnd bytes index.usedBytes
    let last ← stringEnd bytes value
    some ⟨[index.usedBytes, value], last⟩
  else do
    let last ← stringEnd bytes index.usedBytes
    some ⟨[index.usedBytes], last⟩

/-- The layout of the representation at the front, if all of it is there. -/
def layout : Bytes → Option Layout
  | [] => none
  | front :: rest =>
      match Integer.decode (decodeCmd front).bitlen (front :: rest) with
      | .error _ => none
      | .ok index =>
          if (decodeCmd front).isLiteral then literalLayout (front :: rest) index
          else some ⟨[], index.usedBytes⟩

/-- The end of a string that is complete does not depend on what follows it. -/
theorem stringEnd_append {bytes : Bytes} {start last : Nat}
    (complete : stringEnd bytes start = some last) (more : Bytes) :
    stringEnd (bytes ++ more) start = some last ∧ start < last ∧ last ≤ bytes.length := by
  unfold stringEnd at complete ⊢
  cases decoded : Integer.decode 1 (bytes.drop start) with
  | error failure =>
      rw [decoded] at complete
      cases complete
  | ok length =>
      obtain ⟨same, lower, upper⟩ := Integer.decode_append decoded more
      rw [List.length_drop] at upper
      rw [decoded] at complete
      rw [List.drop_append_of_le_length (by omega), same]
      simp only [List.length_append] at complete ⊢
      split at complete
      · rename_i inside
        cases complete
        rw [if_pos (by omega)]
        exact ⟨rfl, by omega, inside⟩
      · cases complete

private theorem literalLayout_append {bytes : Bytes} {index : Integer.DecodedResult}
    {found : Layout}
    (complete : literalLayout bytes index = some found) (more : Bytes) :
    literalLayout (bytes ++ more) index = some found ∧ index.usedBytes < found.length ∧
      found.length ≤ bytes.length := by
  unfold literalLayout at complete ⊢
  split at complete
  · rename_i zero
    obtain ⟨value, first, complete⟩ := Option.bind_eq_some_iff.mp complete
    obtain ⟨last, second, found⟩ := Option.bind_eq_some_iff.mp complete
    cases found
    obtain ⟨name, after, _⟩ := stringEnd_append first more
    obtain ⟨string, later, inside⟩ := stringEnd_append second more
    rw [if_pos zero]
    refine ⟨?_, Nat.lt_trans after later, inside⟩
    exact Option.bind_eq_some_iff.mpr ⟨value, name,
      Option.bind_eq_some_iff.mpr ⟨last, string, rfl⟩⟩
  · rename_i indexed
    obtain ⟨last, first, found⟩ := Option.bind_eq_some_iff.mp complete
    cases found
    obtain ⟨string, later, inside⟩ := stringEnd_append first more
    rw [if_neg indexed]
    exact ⟨Option.bind_eq_some_iff.mpr ⟨last, string, rfl⟩, later, inside⟩

/-- A layout does not change when more bytes follow. -/
theorem layout_append {bytes : Bytes} {found : Layout} (complete : layout bytes = some found)
    (more : Bytes) :
    layout (bytes ++ more) = some found ∧ 0 < found.length ∧ found.length ≤ bytes.length := by
  cases bytes with
  | nil => cases complete
  | cons front rest =>
      rw [layout] at complete
      rw [List.cons_append, layout]
      cases decoded : Integer.decode (decodeCmd front).bitlen (front :: rest) with
      | error failure =>
          rw [decoded] at complete
          cases complete
      | ok index =>
          obtain ⟨same, lower, upper⟩ := Integer.decode_append decoded more
          rw [List.cons_append] at same
          rw [decoded] at complete
          rw [same]
          simp only at complete ⊢
          split at complete
          · rename_i literal
            obtain ⟨kept, later, inside⟩ := literalLayout_append complete more
            rw [if_pos literal]
            exact ⟨kept, Nat.zero_lt_of_lt later, inside⟩
          · rename_i bare
            rw [if_neg bare]
            cases complete
            exact ⟨rfl, lower, upper⟩

/-! ## Reading and executing -/

/-- What a representation says. -/
inductive Instruction
  | index (value : Nat)
  | resize (size : Nat)
  | named (cmd : Command) (index : Nat) (value : Bytes)
  | fresh (cmd : Command) (name value : Bytes)
  deriving DecidableEq, Repr

namespace Instruction

/-- The type of the field that a literal stands for. -/
def literalType : Command → IndexType
  | .literalWithoutIndex => .withoutIndex
  | .literalNeverIndex => .neverIndex
  | _ => .default

/-- The table after a literal. -/
def literalTable (table : DynamicTable) (cmd : Command) (field : HeaderField) : DynamicTable :=
  if cmd = .literalIncrementalIndex then table.insert field.name field.value else table

/-- The table and the field after a representation. -/
def execute (table : DynamicTable) : Instruction → Except Failure (DynamicTable × List HeaderField)
  | .index value => do
      if value = 0 then .error (.runtimeError "Invalid index value")
      else do
        let entry ← HpackTable.atIndex table value
        let field ← HeaderField.create entry.1 entry.2 .default
        .ok (table, [field])
  | .resize size => .ok (table.updateSize size, [])
  | .named cmd number value => do
      let entry ← HpackTable.atIndex table number
      let field ← HeaderField.create entry.1 value (literalType cmd)
      .ok (literalTable table cmd field, [field])
  | .fresh cmd name value => do
      let field ← HeaderField.create name value (literalType cmd)
      .ok (literalTable table cmd field, [field])

/-- What is read from the front of a span, with its layout. -/
inductive Reads (src : Span) : Layout → Instruction → Prop
  | index {index : Integer.DecodedResult} (cmd : decodeCmd (src.mem 0) = .index)
      (decoded : Integer.decode Command.index.bitlen src.bytes = .ok index) :
      Reads src ⟨[], index.usedBytes⟩ (.index index.value)
  | resize {size : Integer.DecodedResult} (cmd : decodeCmd (src.mem 0) = .changeTableSize)
      (decoded : Integer.decode Command.changeTableSize.bitlen src.bytes = .ok size) :
      Reads src ⟨[], size.usedBytes⟩ (.resize size.value)
  | named {index : Integer.DecodedResult} {value : StringLiteral.DecodedResult}
      (literal : (decodeCmd (src.mem 0)).isLiteral = true)
      (decoded : Integer.decode (decodeCmd (src.mem 0)).bitlen src.bytes = .ok index)
      (indexed : index.value ≠ 0)
      (string : StringLiteral.decode (src.subspan index.usedBytes) = .ok value) :
      Reads src ⟨[index.usedBytes], index.usedBytes + value.usedBytes⟩
        (.named (decodeCmd (src.mem 0)) index.value value.value)
  | fresh {index : Integer.DecodedResult} {name value : StringLiteral.DecodedResult}
      (literal : (decodeCmd (src.mem 0)).isLiteral = true)
      (decoded : Integer.decode (decodeCmd (src.mem 0)).bitlen src.bytes = .ok index)
      (zero : index.value = 0)
      (first : StringLiteral.decode (src.subspan index.usedBytes) = .ok name)
      (second : StringLiteral.decode (src.subspan (index.usedBytes + name.usedBytes)) = .ok value) :
      Reads src ⟨[index.usedBytes, index.usedBytes + name.usedBytes],
          index.usedBytes + name.usedBytes + value.usedBytes⟩
        (.fresh (decodeCmd (src.mem 0)) name.value value.value)

variable {table : DynamicTable} {src rest : Span} {next : Decoder.Progress} {field : HeaderField}

/-- The commands with strings read what was said and execute it. -/
theorem literal_reads {cmd : Command} (is : decodeCmd (src.mem 0) = cmd)
    (literal : cmd.isLiteral = true)
    (decoded : Decoder.literalWithoutIndexImpl table src (literalType cmd) cmd.bitlen =
      .ok (rest, field)) :
    ∃ found instruction, Reads src found instruction ∧
      execute table instruction = .ok (literalTable table cmd field, [field]) ∧
      rest = src.subspan found.length := by
  subst is
  obtain ⟨index, integer, decoded⟩ := Outcome.bind_eq_ok.mp decoded
  obtain ⟨⟨name, after⟩, named, decoded⟩ := Outcome.bind_eq_ok.mp decoded
  obtain ⟨value, string, decoded⟩ := Outcome.bind_eq_ok.mp decoded
  obtain ⟨made, created, same⟩ := Outcome.bind_eq_ok.mp decoded
  cases same
  unfold Decoder.literalName at named
  split at named
  · rename_i zero
    obtain ⟨first, read, same⟩ := Outcome.bind_eq_ok.mp named
    cases same
    rw [Span.subspan_subspan] at string
    refine ⟨_, _, .fresh literal integer zero read string, ?_, ?_⟩
    · rw [execute, created]
      rfl
    · rw [Span.subspan_subspan, Span.subspan_subspan, ← Nat.add_assoc]
  · rename_i indexed
    obtain ⟨entry, found, same⟩ := Outcome.bind_eq_ok.mp named
    cases same
    refine ⟨_, _, .named literal integer indexed string, ?_, ?_⟩
    · rw [execute, found, Outcome.ok_bind, created]
      rfl
    · rw [Span.subspan_subspan]

/-- A command that returns reads a representation and executes it. -/
theorem of_runCommand (ran : Decoder.runCommand table src = .ok next) :
    ∃ found instruction, Reads src found instruction ∧
      execute table instruction = .ok (next.table, next.added) ∧
      next.src = src.subspan found.length := by
  unfold Decoder.runCommand at ran
  split at ran
  · rename_i cmd
    obtain ⟨index, integer, ran⟩ := Outcome.bind_eq_ok.mp ran
    split at ran
    · cases ran
    · rename_i some
      obtain ⟨entry, found, ran⟩ := Outcome.bind_eq_ok.mp ran
      obtain ⟨field, created, same⟩ := Outcome.bind_eq_ok.mp ran
      cases same
      refine ⟨_, _, .index cmd integer, ?_, rfl⟩
      rw [execute, if_neg some, found, Outcome.ok_bind, created]
      rfl
  · rename_i cmd
    obtain ⟨⟨rest, field⟩, literal, same⟩ := Outcome.bind_eq_ok.mp ran
    cases same
    exact literal_reads cmd rfl literal
  · rename_i cmd
    obtain ⟨size, integer, same⟩ := Outcome.bind_eq_ok.mp ran
    cases same
    exact ⟨_, _, .resize cmd integer, rfl, rfl⟩
  · rename_i cmd
    obtain ⟨⟨rest, field⟩, literal, same⟩ := Outcome.bind_eq_ok.mp ran
    cases same
    exact literal_reads cmd rfl literal
  · rename_i cmd
    obtain ⟨⟨rest, field⟩, literal, same⟩ := Outcome.bind_eq_ok.mp ran
    cases same
    exact literal_reads cmd rfl literal

/-- The three commands for literals differ in the type of the field and in the table only. -/
theorem runCommand_literal_eq {cmd : Command} (is : decodeCmd (src.mem 0) = cmd)
    (literal : cmd.isLiteral = true) :
    Decoder.runCommand table src = (Decoder.literalWithoutIndexImpl table src (literalType cmd)
      cmd.bitlen >>= fun result =>
        .ok ⟨result.1, literalTable table cmd result.2, [result.2]⟩) := by
  unfold Decoder.runCommand
  rw [is]
  cases cmd with
  | index => cases literal
  | changeTableSize => cases literal
  | _ => rfl

/-- What is read is executed. -/
theorem Reads.runCommand {found : Layout} {instruction : Instruction} {after : DynamicTable}
    {added : List HeaderField} (reads : Reads src found instruction)
    (executed : execute table instruction = .ok (after, added)) :
    Decoder.runCommand table src = .ok ⟨src.subspan found.length, after, added⟩ := by
  cases reads with
  | index cmd decoded =>
      rw [execute] at executed
      split at executed
      · cases executed
      · rename_i some
        obtain ⟨entry, found, executed⟩ := Outcome.bind_eq_ok.mp executed
        obtain ⟨field, created, same⟩ := Outcome.bind_eq_ok.mp executed
        cases same
        rw [Decoder.runCommand, cmd]
        simp only [Decoder.indexCmd, decoded, Outcome.ok_bind, if_neg some, found, created]
  | resize cmd decoded =>
      cases executed
      rw [Decoder.runCommand, cmd]
      simp only [Decoder.changeTableSizeCmd, decoded, Outcome.ok_bind]
  | named literal decoded indexed string =>
      obtain ⟨entry, found, executed⟩ := Outcome.bind_eq_ok.mp executed
      obtain ⟨field, created, same⟩ := Outcome.bind_eq_ok.mp executed
      cases same
      rw [runCommand_literal_eq rfl literal]
      simp only [Decoder.literalWithoutIndexImpl, decoded, Outcome.ok_bind, Decoder.literalName,
        if_neg indexed, found, string, created, Span.subspan_subspan]
  | fresh literal decoded zero first second =>
      obtain ⟨field, created, same⟩ := Outcome.bind_eq_ok.mp executed
      cases same
      rw [runCommand_literal_eq rfl literal]
      simp only [Decoder.literalWithoutIndexImpl, decoded, Outcome.ok_bind, Decoder.literalName,
        if_pos zero, first, Span.subspan_subspan, second, created, Nat.add_assoc]

/-! ## What a layout says about reading -/

/-- A string literal that is read is all there. -/
theorem stringEnd_of_decode {start : Nat} {value : StringLiteral.DecodedResult}
    (decoded : StringLiteral.decode (src.subspan start) = .ok value) :
    stringEnd src.bytes start = some (start + value.usedBytes) := by
  unfold StringLiteral.decode at decoded
  split at decoded
  · cases decoded
  · obtain ⟨length, integer, decoded⟩ := Outcome.bind_eq_ok.mp decoded
    obtain ⟨-, positive, bound⟩ := Integer.decode_append integer []
    rw [Span.bytes_subspan] at integer bound
    rw [List.length_drop, Span.length_bytes] at bound
    rw [stringEnd, integer]
    simp only [Span.length_bytes] at decoded ⊢
    split at decoded
    · cases decoded
    · rename_i enough
      have inside : length.value ≤ src.size - start - length.usedBytes := Nat.not_lt.mp enough
      have used : value.usedBytes = length.usedBytes + length.value := by
        split at decoded
        · cases decoded
          rfl
        · obtain ⟨string, _, same⟩ := Outcome.bind_eq_ok.mp decoded
          cases same
          rfl
      rw [if_pos (by omega), used, Nat.add_assoc]

/-- The layout of what is at the front of a span. -/
theorem layout_eq {index : Integer.DecodedResult}
    (decoded : Integer.decode (decodeCmd (src.mem 0)).bitlen src.bytes = .ok index) :
    layout src.bytes = if (decodeCmd (src.mem 0)).isLiteral then literalLayout src.bytes index
      else some ⟨[], index.usedBytes⟩ := by
  cases content : src.bytes with
  | nil =>
      rw [content] at decoded
      cases decoded
  | cons front more =>
      rw [content, Span.front_of_bytes content] at decoded
      rw [layout, decoded, Span.front_of_bytes content]

/-- What is read has a layout. -/
theorem Reads.layout_eq {found : Layout} {instruction : Instruction}
    (reads : Reads src found instruction) : layout src.bytes = some found := by
  cases reads with
  | index cmd decoded =>
      rw [← cmd] at decoded
      rw [Instruction.layout_eq decoded, cmd]
      rfl
  | resize cmd decoded =>
      rw [← cmd] at decoded
      rw [Instruction.layout_eq decoded, cmd]
      rfl
  | named literal decoded indexed string =>
      rw [Instruction.layout_eq decoded, if_pos literal, literalLayout, if_neg indexed,
        stringEnd_of_decode string]
      rfl
  | fresh literal decoded zero first second =>
      rw [Instruction.layout_eq decoded, if_pos literal, literalLayout, if_pos zero,
        stringEnd_of_decode first, Option.bind_eq_bind, Option.bind_some,
        stringEnd_of_decode second]
      rfl

/-! ## The start of a block -/

variable {part whole : Span} {found other : Layout} {instruction second : Instruction}

/-- A representation that is all there has the same front and layout in the whole block. -/
theorem front_alike (complete : layout part.bytes = some found)
    (starts : part.bytes <+: whole.bytes) :
    part.mem 0 = whole.mem 0 ∧ layout whole.bytes = some found := by
  obtain ⟨more, content⟩ := starts
  refine ⟨?_, content ▸ (layout_append complete more).1⟩
  cases front : part.bytes with
  | nil =>
      rw [front] at complete
      cases complete
  | cons first rest =>
      rw [front, List.cons_append] at content
      rw [Span.front_of_bytes front, Span.front_of_bytes content.symm]

private theorem integer_alike {bits : Nat} {index : Integer.DecodedResult}
    (decoded : Integer.decode bits part.bytes = .ok index) (starts : part.bytes <+: whole.bytes) :
    Integer.decode bits whole.bytes = .ok index := by
  obtain ⟨more, content⟩ := starts
  exact content ▸ (Integer.decode_append decoded more).1

/-- The index of a representation that is all there is read from the part as well. -/
theorem integer_part {index : Integer.DecodedResult} (complete : layout part.bytes = some found)
    (starts : part.bytes <+: whole.bytes)
    (decoded : Integer.decode (decodeCmd (whole.mem 0)).bitlen whole.bytes = .ok index) :
    Integer.decode (decodeCmd (whole.mem 0)).bitlen part.bytes = .ok index := by
  rw [← (front_alike complete starts).1] at decoded ⊢
  cases content : part.bytes with
  | nil =>
      rw [content] at complete
      cases complete
  | cons first rest =>
      rw [content, layout, ← Span.front_of_bytes content] at complete
      cases integer : Integer.decode (decodeCmd (part.mem 0)).bitlen (part.mem 0 :: rest) with
      | error failure =>
          rw [integer] at complete
          cases complete
      | ok length =>
          rw [Span.front_of_bytes content, ← content] at integer
          rw [← Span.front_of_bytes content] at integer
          rw [integer_alike integer starts] at decoded
          rw [← content, integer, decoded]

/-- A representation that is all there is read from the part, if its strings are. -/
theorem Reads.of_whole (reads : Reads whole found instruction)
    (complete : layout part.bytes = some found) (starts : part.bytes <+: whole.bytes)
    (same : ∀ start ∈ found.literals, StringLiteral.decode (part.subspan start) =
      StringLiteral.decode (whole.subspan start)) :
    Reads part found instruction := by
  have front := (front_alike complete starts).1
  cases reads with
  | index cmd decoded =>
      rw [← cmd] at decoded
      have integer := integer_part complete starts decoded
      rw [cmd] at integer
      exact .index (front ▸ cmd) integer
  | resize cmd decoded =>
      rw [← cmd] at decoded
      have integer := integer_part complete starts decoded
      rw [cmd] at integer
      exact .resize (front ▸ cmd) integer
  | named literal decoded indexed string =>
      have integer := integer_part complete starts decoded
      rw [← same _ (List.mem_singleton_self _)] at string
      rw [← front] at literal integer ⊢
      exact .named literal integer indexed string
  | fresh literal decoded zero first second =>
      have integer := integer_part complete starts decoded
      rw [← same _ List.mem_cons_self] at first
      rw [← same _ (List.mem_cons_of_mem _ (List.mem_singleton_self _))] at second
      rw [← front] at literal integer ⊢
      exact .fresh literal integer zero first second

private theorem string_alike {start : Nat} {first second : StringLiteral.DecodedResult}
    (starts : part.bytes <+: whole.bytes)
    (read : StringLiteral.decode (part.subspan start) = .ok first)
    (again : StringLiteral.decode (whole.subspan start) = .ok second) :
    first.usedBytes = second.usedBytes ∧ (first.value = second.value →
      StringLiteral.decode (part.subspan start) = StringLiteral.decode (whole.subspan start)) := by
  obtain ⟨more, content⟩ := starts
  have last := (stringEnd_append (stringEnd_of_decode read) more).1
  rw [content, stringEnd_of_decode again] at last
  have used : first.usedBytes = second.usedBytes :=
    (Nat.add_left_cancel (Option.some.inj last)).symm
  refine ⟨used, fun value => ?_⟩
  cases first
  cases second
  simp only at used value
  rw [read, again, used, value]

private theorem execute_named {cmd : Command} {number : Nat} {value : Bytes} {after : DynamicTable}
    {added : List HeaderField} (executed : execute table (.named cmd number value) =
      .ok (after, added)) :
    ∃ field, added = [field] ∧ field.value = value ∧ after = literalTable table cmd field := by
  obtain ⟨entry, found, executed⟩ := Outcome.bind_eq_ok.mp executed
  obtain ⟨field, created, same⟩ := Outcome.bind_eq_ok.mp executed
  cases same
  exact ⟨field, rfl, (HeaderField.create_eq created).2, rfl⟩

private theorem execute_fresh {cmd : Command} {name value : Bytes} {after : DynamicTable}
    {added : List HeaderField} (executed : execute table (.fresh cmd name value) =
      .ok (after, added)) :
    ∃ field, added = [field] ∧ field.name = name ∧ field.value = value ∧
      after = literalTable table cmd field := by
  obtain ⟨field, created, same⟩ := Outcome.bind_eq_ok.mp executed
  cases same
  exact ⟨field, rfl, (HeaderField.create_eq created).1, (HeaderField.create_eq created).2, rfl⟩

/-- The same representation read from a part and from the whole adds as many fields, and
if they are the same fields then the tables are the same and so are the strings. -/
theorem Reads.alike {after later : DynamicTable} {added extra : List HeaderField}
    (reads : Reads part found instruction) (again : Reads whole other second)
    (starts : part.bytes <+: whole.bytes)
    (executed : execute table instruction = .ok (after, added))
    (repeated : execute table second = .ok (later, extra)) :
    added.length = extra.length ∧ (added = extra → after = later ∧
      ∀ start ∈ found.literals, StringLiteral.decode (part.subspan start) =
        StringLiteral.decode (whole.subspan start)) := by
  have front := (front_alike reads.layout_eq starts).1
  cases reads with
  | index cmd decoded =>
      rw [front] at cmd
      cases again with
      | index _ integer =>
          rw [integer_alike decoded starts] at integer
          cases integer
          rw [executed] at repeated
          cases repeated
          exact ⟨rfl, fun _ => ⟨rfl, nofun⟩⟩
      | resize is => cases cmd.symm.trans is
      | named literal => cases cmd ▸ literal
      | fresh literal => cases cmd ▸ literal
  | resize cmd decoded =>
      rw [front] at cmd
      cases again with
      | resize _ integer =>
          rw [integer_alike decoded starts] at integer
          cases integer
          rw [executed] at repeated
          cases repeated
          exact ⟨rfl, fun _ => ⟨rfl, nofun⟩⟩
      | index is => cases cmd.symm.trans is
      | named literal => cases cmd ▸ literal
      | fresh literal => cases cmd ▸ literal
  | named literal decoded indexed string =>
      rw [front] at literal decoded executed
      cases again with
      | index is => cases is ▸ literal
      | resize is => cases is ▸ literal
      | named _ integer _ repetition =>
          rw [integer_alike decoded starts] at integer
          cases integer
          obtain ⟨field, rfl, value, rfl⟩ := execute_named executed
          obtain ⟨copy, rfl, copied, rfl⟩ := execute_named repeated
          refine ⟨rfl, fun same => ?_⟩
          cases same
          refine ⟨rfl, fun start member => ?_⟩
          cases List.mem_singleton.mp member
          exact (string_alike starts string repetition).2 (value.symm.trans copied)
      | fresh _ integer zero =>
          rw [integer_alike decoded starts] at integer
          cases integer
          exact absurd zero indexed
  | fresh literal decoded zero first string =>
      rw [front] at literal decoded executed
      cases again with
      | index is => cases is ▸ literal
      | resize is => cases is ▸ literal
      | named _ integer indexed =>
          rw [integer_alike decoded starts] at integer
          cases integer
          exact absurd zero indexed
      | fresh _ integer _ naming repetition =>
          rw [integer_alike decoded starts] at integer
          cases integer
          obtain ⟨field, rfl, name, value, rfl⟩ := execute_fresh executed
          obtain ⟨copy, rfl, named, copied, rfl⟩ := execute_fresh repeated
          refine ⟨rfl, fun same => ?_⟩
          cases same
          obtain ⟨used, agree⟩ := string_alike starts first naming
          rw [← used] at repetition
          refine ⟨rfl, fun start member => ?_⟩
          rcases List.mem_cons.mp member with rfl | member
          · exact agree (name.symm.trans named)
          · cases List.mem_singleton.mp member
            exact (string_alike starts string repetition).2 (value.symm.trans copied)

end Instruction

end H2pp.Hpack

import H2pp.Hpack.Representation

/-! # What the decoder relies on

The decoder once more, with everything it relies on and does not check: array accesses
are in range, a `subspan` starts inside its span, 32-bit sums of lengths do not wrap,
every round of the Huffman reader moves on by five bits or to the end, and every command
uses up some input. Where one of these fails, and where a loop does not end, the behaviour
is undefined. None of them ever fails: this decoder is the decoder.
-/

namespace H2pp.Hpack

open Utils
open StaticTable (access access_of_lt)

/-- A condition that the code relies on. -/
def relyOn (condition : Prop) [Decidable condition] : Except Failure Unit :=
  if condition then .ok () else .error .undefinedBehaviour

private theorem relyOn_of {condition : Prop} [Decidable condition] (holds : condition) :
    relyOn condition = .ok () := if_pos holds

/-- `src.subspan(offset)`. -/
def checkedSubspan (src : Span) (offset : Nat) : Except Failure Span := do
  let _inside ← relyOn (offset ≤ src.size)
  .ok (src.subspan offset)

private theorem checkedSubspan_of_le {src : Span} {offset : Nat} (inside : offset ≤ src.size) :
    checkedSubspan src offset = .ok (src.subspan offset) := by
  rw [checkedSubspan, relyOn_of inside, Outcome.ok_bind]

/-! ## Huffman codes -/

namespace Huffman

/-- `find(code)`. -/
def checkedFind (code : Nat) : Except Failure Int := do
  let fourth ← access assoValues (code >>> 24 % 256)
  let third ← access assoValues (code >>> 16 % 256)
  let second ← access assoValues (code >>> 8 % 256)
  let first ← access assoValues (code % 256)
  if fourth + third + second + first ≤ 266 then access wordlist (fourth + third + second + first)
  else .ok (-1)

/-- `huffman::decode(code)`. -/
def checkedDecode (code : HuffmanCode) : Except Failure (Option Nat) := do
  let index ← checkedFind code.huffmanCode
  if index ≥ 0 then do
    let entry ← access huffmanTable index.toNat
    .ok (if entry = code then some index.toNat else none)
  else .ok none

private theorem assoValues_access (byte : Nat) :
    access assoValues (byte % 256) = .ok (assoValues.getD (byte % 256) 0) := by
  have length : assoValues.length = 256 := by decide +kernel
  exact access_of_lt 0 (by rw [length]; exact Nat.mod_lt _ (by decide))

private theorem checkedFind_eq (code : Nat) : checkedFind code = .ok (find code) := by
  have length : wordlist.length = 267 := by decide +kernel
  simp only [checkedFind, find, assoValues_access, Outcome.ok_bind]
  split
  · rename_i small
    exact access_of_lt (-1) (by omega)
  · rfl

private theorem wordlist_lt : ∀ index ∈ wordlist, index < 257 := by decide +kernel

/-- The hash only points to symbols. -/
theorem find_lt (code : Nat) : find code < 257 := by
  have length : wordlist.length = 267 := by decide +kernel
  simp only [find]
  split
  · rename_i small
    rw [List.getD_eq_getElem?_getD, List.getElem?_eq_getElem (by omega), Option.getD_some]
    exact wordlist_lt _ (List.getElem_mem _)
  · decide

private theorem checkedDecode_eq (code : HuffmanCode) : checkedDecode code = .ok (decode code) := by
  have bound := find_lt code.huffmanCode
  simp only [checkedDecode, checkedFind_eq, Outcome.ok_bind, decode]
  by_cases found : find code.huffmanCode ≥ 0
  · have inside : (find code.huffmanCode).toNat < huffmanTable.length := by
      rw [length_huffmanTable]
      omega
    have entry : access huffmanTable (find code.huffmanCode).toNat = _ := access_of_lt ⟨0, 0⟩ inside
    rw [if_pos found, entry, Outcome.ok_bind, List.getD_eq_getElem?_getD,
      List.getElem?_eq_getElem inside, Option.getD_some]
    simp only [found, true_and, Option.some.injEq]
  · rw [if_neg found, if_neg fun both => found both.1]

end Huffman

/-! ## Strings -/

namespace Integer

variable {bits : Nat} {src : Bytes} {result : DecodedResult}

private theorem decodeGroups_bounds {value m used : Nat}
    (decoded : decodeGroups value m used src = .ok result) :
    m + 7 * result.usedBytes ≤ 70 + 7 * used ∧ result.value ≤ maxHpackInt := by
  induction src generalizing value m used with
  | nil => cases decoded
  | cons b src ih =>
      rw [decodeGroups] at decoded
      split at decoded
      · cases decoded
      · rename_i shift
        simp only at decoded
        split at decoded
        · cases decoded
        · rename_i small
          split at decoded
          · obtain ⟨used, bound⟩ := ih decoded
            exact ⟨by omega, bound⟩
          · cases decoded
            exact ⟨by simp only; omega, Nat.not_lt.mp small⟩

/-- The 32-bit results of `integer::decode` are small. -/
theorem decode_bounds (decoded : decode bits src = .ok result) :
    0 < result.usedBytes ∧ result.usedBytes ≤ src.length ∧ result.usedBytes ≤ 11 ∧
      result.value ≤ maxHpackInt := by
  obtain ⟨-, lower, upper⟩ := decode_append decoded []
  refine ⟨lower, upper, ?_⟩
  cases src with
  | nil => cases decoded
  | cons front src =>
      have byte := front.toNat_lt
      have limit : maxHpackInt = 16777200 := rfl
      simp only [decode] at decoded
      split at decoded
      · cases decoded
      · split at decoded
        · cases decoded
          have low : front.toNat &&& makeMask 8 (8 - bits) ≤ front.toNat := Nat.and_le_left
          exact ⟨by simp only; omega, by simp only; omega⟩
        · obtain ⟨used, bound⟩ := decodeGroups_bounds decoded
          exact ⟨by omega, bound⟩

end Integer

namespace StringLiteral

/-- The loop over the code lengths. -/
def checkedFindCode (src : Span) (pos : Nat) : List Nat → Except Failure (Option (Nat × Nat))
  | [] => .ok none
  | bitLen :: codeLengths => do
      let hcode ← takeBits src pos bitLen
      let symbol ← Huffman.checkedDecode ⟨hcode, bitLen⟩
      match symbol with
      | some index => .ok (some (index, bitLen))
      | none => checkedFindCode src pos codeLengths

/-- The loop of `read_huffman_str`. -/
def checkedHuffmanLoop : Nat → Span → Nat → Bytes → Except Failure Bytes
  | 0, src, pos, result => do
      let _ended ← relyOn (pos = src.size * 8)
      .ok result
  | fuel + 1, src, pos, result =>
      if pos = src.size * 8 then .ok result
      else if isPadding src pos then .ok result
      else do
        match ← checkedFindCode src pos Huffman.codeLenArray with
        | none => .error (.invalidArgument "Can't decode huffman code")
        | some (index, codeLen) =>
            if index = Huffman.eos then .ok result
            else do
              let next := commitBits src pos codeLen
              let _moved ← relyOn (pos + 5 ≤ next ∨ next = src.size * 8)
              checkedHuffmanLoop fuel src next (result ++ [UInt8.ofNat index])

/-- `string::decode(src)`. -/
def checkedDecode (src : Span) : Except Failure DecodedResult :=
  if src.size = 0 then .error (.invalidArgument "A source can't be empty")
  else do
    let isHuffman := src.mem 0 &&& StringFlag.encoded.value ≠ 0
    let strLength ← Integer.decode 1 src.bytes
    let rest ← checkedSubspan src strLength.usedBytes
    if rest.size < strLength.value then
      .error (.invalidArgument "Not enough input data for string")
    else do
      let _sum ← relyOn (strLength.usedBytes + strLength.value < 2 ^ 32)
      if ¬ isHuffman then
        .ok ⟨strLength.usedBytes + strLength.value, rest.bytes.take strLength.value⟩
      else do
        let value ← checkedHuffmanLoop (strLength.value * 8) (rest.first strLength.value) 0 []
        .ok ⟨strLength.usedBytes + strLength.value, value⟩

private theorem checkedFindCode_eq (src : Span) (pos : Nat) (lengths : List Nat) :
    checkedFindCode src pos lengths = findCode src pos lengths := by
  induction lengths with
  | nil => rfl
  | cons len lengths ih =>
      rw [checkedFindCode, findCode]
      refine congrArg (takeBits src pos len >>= ·) (funext fun hcode => ?_)
      rw [Huffman.checkedDecode_eq, Outcome.ok_bind]
      cases Huffman.decode ⟨hcode, len⟩ with
      | none => exact ih
      | some index => rfl

private theorem codeLen_of_findCode {src : Span} {pos index codeLen : Nat} {lengths : List Nat}
    (found : findCode src pos lengths = .ok (some (index, codeLen))) : codeLen ∈ lengths := by
  induction lengths with
  | nil => cases found
  | cons len lengths ih =>
      obtain ⟨hcode, -, found⟩ := Outcome.bind_eq_ok.mp found
      split at found
      · cases found
        exact List.mem_cons_self
      · exact List.mem_cons_of_mem _ (ih found)

private theorem codeLenArray_ge : ∀ len ∈ Huffman.codeLenArray, 5 ≤ len := by decide

/-- The reader moves on in every round, and so it ends. -/
theorem checkedHuffmanLoop_eq {src : Span} {fuel pos : Nat} (result : Bytes)
    (inside : pos ≤ src.size * 8) (enough : src.size * 8 ≤ pos + fuel) :
    checkedHuffmanLoop fuel src pos result = readHuffmanLoop fuel src pos result := by
  induction fuel generalizing pos result with
  | zero =>
      rw [checkedHuffmanLoop, relyOn_of (Nat.le_antisymm inside enough), Outcome.ok_bind]
      rfl
  | succ fuel ih =>
      rw [checkedHuffmanLoop, readHuffmanLoop]
      by_cases ended : pos = src.size * 8
      · rw [if_pos ended, if_pos ended]
      · rw [if_neg ended, if_neg ended, checkedFindCode_eq]
        cases search : findCode src pos Huffman.codeLenArray with
        | error failure => rfl
        | ok found =>
            cases found with
            | none => rfl
            | some symbol =>
                have long := codeLenArray_ge _ (codeLen_of_findCode search)
                have moved : pos + 5 ≤ commitBits src pos symbol.2 ∨
                    commitBits src pos symbol.2 = src.size * 8 := by
                  rw [commitBits]
                  omega
                have step (result : Bytes) := @ih (commitBits src pos symbol.2) result
                  (Nat.min_le_right _ _) (by omega)
                simp only [Outcome.ok_bind, relyOn_of moved, step]

private theorem checkedDecode_eq (src : Span) : checkedDecode src = decode src := by
  rw [checkedDecode, decode]
  by_cases empty : src.size = 0
  · rw [if_pos empty, if_pos empty]
  · rw [if_neg empty, if_neg empty]
    cases decoded : Integer.decode 1 src.bytes with
    | error failure => rfl
    | ok length =>
        obtain ⟨-, inside, used, small⟩ := Integer.decode_bounds decoded
        rw [Span.length_bytes] at inside
        have limit : Integer.maxHpackInt = 16777200 := rfl
        have sum : length.usedBytes + length.value < 2 ^ 32 := by omega
        have read := @checkedHuffmanLoop_eq ((src.subspan length.usedBytes).first length.value)
          (length.value * 8) 0 [] (Nat.zero_le _) (Nat.le_add_left _ _)
        simp only [Outcome.ok_bind, checkedSubspan_of_le inside, relyOn_of sum, read,
          readHuffmanStr]
        rfl

/-- The string that is read ends inside the input. -/
theorem usedBytes_le {src : Span} {result : DecodedResult} (decoded : decode src = .ok result) :
    0 < result.usedBytes ∧ result.usedBytes ≤ src.size := by
  have found := @Instruction.stringEnd_of_decode src 0 result
    (by rw [Span.subspan_zero]; exact decoded)
  obtain ⟨-, lower, upper⟩ := stringEnd_append found []
  rw [Span.length_bytes] at upper
  omega

end StringLiteral

/-! ## Commands -/

/-- `hpack_table::at(i)`. -/
def HpackTable.checkedAt (dyn : DynamicTable) (i : Nat) : Except Failure (Bytes × Bytes) :=
  if i = 0 then .error (.runtimeError "Invalid index value 0")
  else if i ≤ StaticTable.size then do
    let _positive ← relyOn (1 ≤ i)
    access StaticTable.fieldTable (i - 1)
  else if i - StaticTable.size ≤ dyn.table.length then do
    let _positive ← relyOn (1 ≤ i - StaticTable.size)
    let record ← access dyn.table (i - StaticTable.size - 1)
    .ok (record.name, record.value)
  else .error (.runtimeError "Invalid index")

private theorem HpackTable.checkedAt_eq (dyn : DynamicTable) (i : Nat) :
    checkedAt dyn i = atIndex dyn i := by
  rw [checkedAt, atIndex]
  by_cases zero : i = 0
  · rw [if_pos zero, if_pos zero]
  · rw [if_neg zero, if_neg zero]
    by_cases static : i ≤ StaticTable.size
    · rw [if_pos static, if_pos static, relyOn_of (show 1 ≤ i by omega), Outcome.ok_bind]
      exact access_of_lt ([], []) (show i - 1 < StaticTable.size by omega)
    · rw [if_neg static, if_neg static, DynamicTable.atIndex]
      by_cases inside : i - StaticTable.size ≤ dyn.table.length
      · have bound : i - StaticTable.size - 1 < dyn.table.length := by omega
        rw [if_pos inside, relyOn_of (show 1 ≤ i - StaticTable.size by omega), Outcome.ok_bind,
          access, List.getElem?_eq_getElem bound]
        rfl
      · rw [if_neg inside, List.getElem?_eq_none (by omega)]

namespace Decoder

/-- `index_cmd`. -/
def checkedIndexCmd (table : DynamicTable) (src : Span) : Except Failure Progress := do
  let index ← Integer.decode Command.index.bitlen src.bytes
  if index.value = 0 then .error (.runtimeError "Invalid index value")
  else do
    let entry ← HpackTable.checkedAt table index.value
    let field ← HeaderField.create entry.1 entry.2 .default
    let rest ← checkedSubspan src index.usedBytes
    .ok ⟨rest, table, [field]⟩

/-- `change_table_size_cmd`. -/
def checkedChangeTableSizeCmd (table : DynamicTable) (src : Span) : Except Failure Progress := do
  let maxSize ← Integer.decode Command.changeTableSize.bitlen src.bytes
  let rest ← checkedSubspan src maxSize.usedBytes
  .ok ⟨rest, table.updateSize maxSize.value, []⟩

/-- The name of a literal. -/
def checkedLiteralName (table : DynamicTable) (src : Span) (index : Nat) :
    Except Failure (Bytes × Span) :=
  if index = 0 then do
    let decodedName ← StringLiteral.checkedDecode src
    let rest ← checkedSubspan src decodedName.usedBytes
    .ok (decodedName.value, rest)
  else do
    let entry ← HpackTable.checkedAt table index
    .ok (entry.1, src)

/-- `literal_without_index_impl`. -/
def checkedLiteralImpl (table : DynamicTable) (src : Span) (type : IndexType) (bits : Nat) :
    Except Failure (Span × HeaderField) := do
  let index ← Integer.decode bits src.bytes
  let src ← checkedSubspan src index.usedBytes
  let (name, src) ← checkedLiteralName table src index.value
  let decodedValue ← StringLiteral.checkedDecode src
  let rest ← checkedSubspan src decodedValue.usedBytes
  let field ← HeaderField.create name decodedValue.value type
  .ok (rest, field)

/-- The selected command. -/
def checkedCommand (table : DynamicTable) (src : Span) : Except Failure Progress :=
  match decodeCmd (src.mem 0) with
  | .index => checkedIndexCmd table src
  | .changeTableSize => checkedChangeTableSizeCmd table src
  | cmd => do
      let (rest, field) ← checkedLiteralImpl table src (Instruction.literalType cmd) cmd.bitlen
      .ok ⟨rest, Instruction.literalTable table cmd field, [field]⟩

/-- The loop of `decode`. -/
def checkedLoop : Nat → DynamicTable → Span → List HeaderField →
    DynamicTable × Except Failure (List HeaderField)
  | 0, table, src, fields => (table, relyOn (src.size = 0) >>= fun _ => .ok fields)
  | fuel + 1, table, src, fields =>
      if src.size = 0 then (table, .ok fields)
      else
        match checkedCommand table src with
        | .error failure => (table, .error failure)
        | .ok next =>
            if next.src.size < src.size then
              checkedLoop fuel next.table next.src (fields ++ next.added)
            else (table, .error .undefinedBehaviour)

/-- `decode(src)`. -/
def checkedDecode (decoder : Decoder) (src : Span) : Decoder × Except Failure (List HeaderField) :=
  let (table, result) := checkedLoop src.size decoder.table src []
  (⟨table⟩, result)

variable {table : DynamicTable} {src : Span}

private theorem checkedSubspan_integer {bits : Nat} {result : Integer.DecodedResult}
    (decoded : Integer.decode bits src.bytes = .ok result) :
    checkedSubspan src result.usedBytes = .ok (src.subspan result.usedBytes) := by
  obtain ⟨-, inside, -⟩ := Integer.decode_bounds decoded
  rw [Span.length_bytes] at inside
  exact checkedSubspan_of_le inside

private theorem checkedSubspan_string {result : StringLiteral.DecodedResult}
    (decoded : StringLiteral.decode src = .ok result) :
    checkedSubspan src result.usedBytes = .ok (src.subspan result.usedBytes) :=
  checkedSubspan_of_le (StringLiteral.usedBytes_le decoded).2

private theorem checkedIndexCmd_eq (table : DynamicTable) (src : Span) :
    checkedIndexCmd table src = indexCmd table src := by
  rw [checkedIndexCmd, indexCmd]
  cases decoded : Integer.decode Command.index.bitlen src.bytes with
  | error failure => rfl
  | ok index =>
      simp only [Outcome.ok_bind, checkedSubspan_integer decoded, HpackTable.checkedAt_eq]

private theorem checkedChangeTableSizeCmd_eq (table : DynamicTable) (src : Span) :
    checkedChangeTableSizeCmd table src = changeTableSizeCmd table src := by
  rw [checkedChangeTableSizeCmd, changeTableSizeCmd]
  cases decoded : Integer.decode Command.changeTableSize.bitlen src.bytes with
  | error failure => rfl
  | ok index => simp only [Outcome.ok_bind, checkedSubspan_integer decoded]

private theorem checkedLiteralName_eq (table : DynamicTable) (src : Span) (index : Nat) :
    checkedLiteralName table src index = literalName table src index := by
  rw [checkedLiteralName, literalName, StringLiteral.checkedDecode_eq, HpackTable.checkedAt_eq]
  cases decoded : StringLiteral.decode src with
  | error failure => rfl
  | ok name => simp only [Outcome.ok_bind, checkedSubspan_string decoded]

private theorem checkedLiteralImpl_eq (table : DynamicTable) (src : Span) (type : IndexType)
    (bits : Nat) :
    checkedLiteralImpl table src type bits = literalWithoutIndexImpl table src type bits := by
  rw [checkedLiteralImpl, literalWithoutIndexImpl]
  cases decoded : Integer.decode bits src.bytes with
  | error failure => rfl
  | ok index =>
      simp only [Outcome.ok_bind, checkedSubspan_integer decoded, checkedLiteralName_eq,
        StringLiteral.checkedDecode_eq]
      refine congrArg (literalName table (src.subspan index.usedBytes) index.value >>= ·) ?_
      funext named
      obtain ⟨name, rest⟩ := named
      cases read : StringLiteral.decode rest with
      | error failure => rfl
      | ok value => simp only [Outcome.ok_bind, checkedSubspan_string read]

private theorem checkedCommand_eq (table : DynamicTable) (src : Span) :
    checkedCommand table src = runCommand table src := by
  rw [checkedCommand, runCommand]
  cases decodeCmd (src.mem 0) with
  | index => exact checkedIndexCmd_eq table src
  | changeTableSize => exact checkedChangeTableSizeCmd_eq table src
  | literalIncrementalIndex => simp only [checkedLiteralImpl_eq]; rfl
  | literalWithoutIndex => simp only [checkedLiteralImpl_eq]; rfl
  | literalNeverIndex => simp only [checkedLiteralImpl_eq]; rfl

/-- A command uses up at least one byte. -/
theorem runCommand_size_lt {next : Progress} (some : src.size ≠ 0)
    (ran : runCommand table src = .ok next) : next.src.size < src.size := by
  obtain ⟨found, instruction, reads, -, rest⟩ := Instruction.of_runCommand ran
  obtain ⟨-, positive, -⟩ := layout_append reads.layout_eq []
  rw [rest]
  change src.size - found.length < src.size
  omega

private theorem checkedLoop_eq {fuel : Nat} (enough : src.size ≤ fuel) (fields : List HeaderField) :
    checkedLoop fuel table src fields = decodeLoop fuel table src fields := by
  induction fuel generalizing table src fields with
  | zero =>
      rw [checkedLoop, relyOn_of (Nat.le_zero.mp enough)]
      rfl
  | succ fuel ih =>
      rw [checkedLoop, decodeLoop, checkedCommand_eq]
      by_cases empty : src.size = 0
      · rw [if_pos empty, if_pos empty]
      · rw [if_neg empty, if_neg empty]
        cases ran : runCommand table src with
        | error failure => rfl
        | ok next =>
            have shorter := runCommand_size_lt empty ran
            simp only [shorter, ↓reduceIte]
            exact ih (by omega) _

/-- Nothing the decoder relies on fails. -/
theorem checkedDecode_eq (decoder : Decoder) (src : Span) :
    decoder.checkedDecode src = decoder.decode src := by
  rw [checkedDecode, decode, checkedLoop_eq (Nat.le_refl _)]

end Decoder

end H2pp.Hpack

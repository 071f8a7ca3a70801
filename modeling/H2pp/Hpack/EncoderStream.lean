import H2pp.Hpack.HeaderField
import H2pp.Hpack.String
import H2pp.Utils.Streambuf

/-! # Writing string literals

`hpack/encoder_stream.cpp` and the size estimate of `hpack/encoder.cpp`. Codes
are collected in a 64-bit accumulator; whole bytes leave it when the next code
does not fit, and the last byte is filled up with ones.
-/

namespace H2pp.Hpack

open Utils

/-- The state of the loop of `encode_string`: the bytes written, and the
accumulator `val` with its `len` lowest bits in use. -/
structure Pending where
  stream : Streambuf
  val : Nat
  len : Nat

namespace Pending

/-- Write the whole bytes of the accumulator. -/
def writeReady (pending : Pending) : Pending :=
  let bitesLeft := 64 - pending.len
  let readyBytes := pending.len / 8
  { pending with
    stream := pending.stream.pushBack
      ((Bits.wordBytes ((pending.val <<< bitesLeft) % 2 ^ 64)).take readyBytes)
    len := pending.len - readyBytes * 8 }

/-- Append a code to the accumulator. -/
def append (pending : Pending) (code : Huffman.HuffmanCode) : Pending :=
  { pending with
    val := (pending.val <<< code.bitLength) % 2 ^ 64 |||
      code.huffmanCode >>> (32 - code.bitLength)
    len := pending.len + code.bitLength }

/-- One round of the loop. -/
def push (pending : Pending) (byte : UInt8) : Pending :=
  let code := Huffman.encode byte.toNat
  if 64 - pending.len < code.bitLength then pending.writeReady.append code
  else pending.append code

/-- Store the tail of the encoded data. -/
def writeTail (pending : Pending) : Streambuf :=
  if pending.len > 0 then
    let bitesLeft := 64 - pending.len
    let val := (pending.val <<< bitesLeft) % 2 ^ 64 ||| makeMask 64 bitesLeft
    pending.stream.pushBack ((Bits.wordBytes val).take (ceilOrder2 pending.len 3 / 8))
  else pending.stream

/-- The bits written so far and those still in the accumulator. -/
def bits (pending : Pending) : List Bool :=
  Bits.ofBytes pending.stream.contents ++ Bits.ofNat pending.len pending.val

/-- The bytes at the top of a word that holds `len` bits above some filling. -/
theorem ofBytes_take_word (len val filling count : Nat) (room : len ≤ 64)
    (small : filling < 2 ^ (64 - len)) :
    Bits.ofBytes ((Bits.wordBytes ((val <<< (64 - len)) % 2 ^ 64 ||| filling)).take count) =
      (Bits.ofNat len val ++ Bits.ofNat (64 - len) filling).take (8 * count) := by
  have low : filling % 2 ^ 64 = filling :=
    Nat.mod_eq_of_lt (lt_of_lt_of_le small (Nat.pow_le_pow_right (by omega) (by omega)))
  have word := Bits.ofNat_shiftLeft_or len (64 - len) val filling small
  rw [show len + (64 - len) = 64 by omega, ← Bits.ofNat_mod 64 64 _ le_rfl, Nat.or_mod_two_pow,
    low] at word
  rw [Bits.ofBytes_take, Bits.ofBytes_wordBytes, word]

private theorem writeReady_bits (pending : Pending) (room : pending.len ≤ 64) :
    pending.writeReady.bits = pending.bits ∧ pending.writeReady.len < 8 := by
  have word := ofBytes_take_word pending.len pending.val 0 (pending.len / 8) room
    (Nat.two_pow_pos _)
  rw [Nat.or_zero, List.take_append_of_le_length (by rw [Bits.length_ofNat]; omega)] at word
  have split := Bits.ofNat_add (8 * (pending.len / 8)) (pending.len % 8) pending.val
  rw [Nat.div_add_mod] at split
  have rest : pending.len - pending.len / 8 * 8 = pending.len % 8 := by omega
  constructor
  · simp only [bits, writeReady, Streambuf.contents_pushBack, Bits.ofBytes_append, rest, word]
    rw [split, List.take_left' (Bits.length_ofNat _ _), List.append_assoc]
  · change pending.len - pending.len / 8 * 8 < 8
    omega

private theorem append_bits (pending : Pending) {code : Huffman.HuffmanCode}
    (member : code ∈ Huffman.huffmanTable) (room : pending.len + code.bitLength ≤ 64) :
    (pending.append code).bits = pending.bits ++ code.bits := by
  obtain ⟨-, upper, small, -⟩ := Huffman.bounds_of_mem code member
  have low : code.huffmanCode >>> (32 - code.bitLength) < 2 ^ code.bitLength := by
    rw [Nat.shiftRight_eq_div_pow]
    apply Nat.div_lt_of_lt_mul
    rw [← Nat.pow_add, show 32 - code.bitLength + code.bitLength = 32 by omega]
    exact small
  have lowMod : code.huffmanCode >>> (32 - code.bitLength) % 2 ^ 64 =
      code.huffmanCode >>> (32 - code.bitLength) :=
    Nat.mod_eq_of_lt (lt_of_lt_of_le low (Nat.pow_le_pow_right (by omega) (by omega)))
  have joined := Bits.ofNat_shiftLeft_or pending.len code.bitLength pending.val _ low
  rw [← Bits.ofNat_mod _ 64 _ room, Nat.or_mod_two_pow, lowMod] at joined
  simp only [bits, append, joined, List.append_assoc]
  rfl

/-- One round appends the code of its byte. -/
theorem push_bits (pending : Pending) (byte : UInt8) (room : pending.len ≤ 64) :
    (pending.push byte).bits = pending.bits ++ (Huffman.encode byte.toNat).bits ∧
      (pending.push byte).len ≤ 64 := by
  have member := Huffman.encode_mem (show byte.toNat < 257 by have := byte.toNat_lt; omega)
  obtain ⟨-, upper, -⟩ := Huffman.bounds_of_mem _ member
  obtain ⟨same, few⟩ := writeReady_bits pending room
  rw [push]
  by_cases full : 64 - pending.len < (Huffman.encode byte.toNat).bitLength
  · simp only [full, ↓reduceIte]
    rw [append_bits _ member (by omega), same]
    refine ⟨rfl, ?_⟩
    change pending.writeReady.len + _ ≤ 64
    omega
  · simp only [full, ↓reduceIte]
    rw [append_bits _ member (by omega)]
    refine ⟨rfl, ?_⟩
    change pending.len + _ ≤ 64
    omega

/-- The whole loop appends the codes of its bytes. -/
theorem foldl_push_bits (data : Bytes) (pending : Pending) (room : pending.len ≤ 64) :
    (data.foldl push pending).bits = pending.bits ++ Huffman.codes data ∧
      (data.foldl push pending).len ≤ 64 := by
  induction data generalizing pending with
  | nil => exact ⟨(List.append_nil _).symm, room⟩
  | cons byte data ih =>
      obtain ⟨bits, next⟩ := push_bits pending byte room
      obtain ⟨rest, bound⟩ := ih (pending.push byte) next
      refine ⟨?_, bound⟩
      rw [List.foldl_cons, rest, bits, Huffman.codes_cons, List.append_assoc]

/-- The tail is written with fewer than eight ones after it. -/
theorem writeTail_bits (pending : Pending) (room : pending.len ≤ 64) :
    ∃ pad < 8, Bits.ofBytes pending.writeTail.contents =
      pending.bits ++ List.replicate pad true := by
  by_cases some : pending.len > 0
  · refine ⟨8 * ((pending.len + 7) / 8) - pending.len, by omega, ?_⟩
    have mask := makeMask_of_lt (show 64 - pending.len < 64 by omega)
    have word := ofBytes_take_word pending.len pending.val (2 ^ (64 - pending.len) - 1)
      ((pending.len + 7) / 8) room (by have := Nat.two_pow_pos (64 - pending.len); omega)
    have whole : (Bits.ofNat pending.len pending.val).take (8 * ((pending.len + 7) / 8)) =
        Bits.ofNat pending.len pending.val :=
      List.take_of_length_le (by rw [Bits.length_ofNat]; omega)
    rw [Bits.ofNat_mask, List.take_append, Bits.length_ofNat, whole, List.take_replicate,
      Nat.min_eq_left (by omega)] at word
    simp only [writeTail, some, ↓reduceIte, mask,
      ceilOrder2_three _ (show pending.len + 7 < 2 ^ 64 by omega), Streambuf.contents_pushBack,
      Bits.ofBytes_append, word, bits, List.append_assoc]
  · refine ⟨0, by omega, ?_⟩
    simp only [writeTail, some, ↓reduceIte, bits]
    simp only [show pending.len = 0 by omega, Bits.ofNat, List.append_nil, List.replicate_zero]

end Pending

/-- `encoder_stream`. -/
structure EncoderStream where
  stream : Streambuf
  maxSize : Nat
  left : Nat

namespace EncoderStream

/-- `encoder_stream(max)`. -/
def create (max : Nat) : EncoderStream := ⟨.empty, max, max⟩

/-- `push_back(src)`. -/
def pushBack (out : EncoderStream) (src : Bytes) : EncoderStream × Bool :=
  if src.length ≤ out.left then
    ({ out with stream := out.stream.pushBack src, left := out.left - src.length }, true)
  else (out, false)

/-- `encode_string(src)`. -/
def encodeString (out : EncoderStream) (src : Bytes) : EncoderStream :=
  { out with stream := (src.foldl Pending.push ⟨out.stream, 0, 0⟩).writeTail }

/-- `write_string(estimation, encoded_size, src)`. -/
def writeString (out : EncoderStream) (estimation : Nat × StringFlag) (encodedSize src : Bytes) :
    EncoderStream :=
  let sized := { out with stream := out.stream.pushBack encodedSize }
  match estimation.2 with
  | .encoded => sized.encodeString src
  | .inplace => { sized with stream := sized.stream.pushBack src }

/-- The bytes of strings are not taken from what is left. -/
@[simp] theorem writeString_left (out : EncoderStream) (estimation : Nat × StringFlag)
    (encodedSize src : Bytes) : (out.writeString estimation encodedSize src).left = out.left := by
  rw [writeString]
  cases estimation.2 <;> rfl

/-- Encoding a string appends its codes, filled up to whole bytes. -/
theorem encodeString_bits (out : EncoderStream) (src : Bytes) :
    ∃ body pad, pad < 8 ∧ (out.encodeString src).stream.contents = out.stream.contents ++ body ∧
      Bits.ofBytes body = Huffman.codes src ++ List.replicate pad true := by
  obtain ⟨bits, room⟩ := Pending.foldl_push_bits src ⟨out.stream, 0, 0⟩ (Nat.zero_le _)
  obtain ⟨pad, few, tail⟩ := Pending.writeTail_bits _ room
  rw [bits, Pending.bits, Bits.ofNat, List.append_nil, List.append_assoc] at tail
  obtain ⟨body, split, content⟩ := Bits.exists_append_of_ofBytes tail
  exact ⟨body, pad, few, split, content⟩

/-- What is appended does not depend on what was written before. -/
theorem encodeString_append (out : EncoderStream) (src : Bytes) :
    (out.encodeString src).stream.contents =
      out.stream.contents ++ ((create 0).encodeString src).stream.contents := by
  obtain ⟨body, pad, few, split, bits⟩ := encodeString_bits out src
  obtain ⟨alone, other, fewOther, splitAlone, bitsAlone⟩ := encodeString_bits (create 0) src
  have empty : (create 0).stream.contents = [] := rfl
  rw [split, splitAlone, empty, List.nil_append,
    Bits.padded_unique few fewOther bits bitsAlone]

private theorem writeString_append (out : EncoderStream) (estimation : Nat × StringFlag)
    (encodedSize src : Bytes) :
    (out.writeString estimation encodedSize src).stream.contents = out.stream.contents ++
      ((create 0).writeString estimation encodedSize src).stream.contents := by
  have empty : (create 0).stream.contents = [] := rfl
  cases flag : estimation.2 with
  | encoded =>
      simp only [writeString, flag]
      rw [encodeString_append, encodeString_append ⟨(create 0).stream.pushBack encodedSize, _, _⟩]
      simp only [Streambuf.contents_pushBack, List.append_assoc, empty, List.nil_append]
  | inplace =>
      simp only [writeString, flag, Streambuf.contents_pushBack, List.append_assoc, empty,
        List.nil_append]

/-- `flush()`. -/
def flush (out : EncoderStream) : List Buffer × EncoderStream :=
  (out.stream.flush.1, { out with stream := out.stream.flush.2, left := out.maxSize })

end EncoderStream

/-- `encoder::encoder_config`, the fields the encoder reads. -/
structure EncoderConfig where
  initTableSize : Nat := 4096
  minHuffmanRate : Nat := 90
  deriving DecidableEq, Repr

/-- `encoder::estimate_string_size(src)`. -/
def estimateStringSize (config : EncoderConfig) (src : Bytes) : Nat × StringFlag :=
  let encodedBitLen := Huffman.estimateLen src
  let encodedBytesLen := ceilOrder2 encodedBitLen 3 / 8 % 2 ^ 32
  let srcLen := src.length
  if encodedBytesLen < srcLen ∧
      (srcLen < 10 ∨ 100 * encodedBytesLen % 2 ^ 32 / srcLen ≤ config.minHuffmanRate) then
    (encodedBytesLen, .encoded)
  else (srcLen, .inplace)

/-- The estimate of an admitted string: its own size, or the number of bytes its
codes take when that is less. -/
theorem estimateStringSize_cases (config : EncoderConfig) {src : Bytes}
    (admitted : HeaderField.Admitted src.length) :
    estimateStringSize config src = (src.length, .inplace) ∨
      estimateStringSize config src = ((Huffman.estimateLen src + 7) / 8, .encoded) ∧
        (Huffman.estimateLen src + 7) / 8 < src.length := by
  have bits := (Huffman.estimateLen_bounds src).2
  have size : src.length < 10485760 := HeaderField.length_lt admitted
  have bytes : ceilOrder2 (Huffman.estimateLen src) 3 / 8 % 2 ^ 32 =
      (Huffman.estimateLen src + 7) / 8 := by
    rw [ceilOrder2_three _ (by omega), Nat.mod_eq_of_lt (by omega)]
  unfold estimateStringSize
  simp only [bytes]
  split
  · rename_i shorter
    exact .inr ⟨rfl, shorter.1⟩
  · exact .inl rfl

/-! ## Shift amounts -/

/-- The amount of a shift of a 64-bit value, which must be below 64. -/
def shiftAmount (amount : Nat) : Except Failure Nat :=
  if amount < 64 then .ok amount else .error .undefinedBehaviour

private theorem shiftAmount_of_lt {amount : Nat} (small : amount < 64) :
    shiftAmount amount = .ok amount :=
  if_pos small

namespace Pending

/-- The flush of one round, with its shift. -/
def checkedReady (pending : Pending) (code : Huffman.HuffmanCode) : Except Failure Pending :=
  if sizeSub 64 pending.len < code.bitLength then do
    let _bitesLeft ← shiftAmount (sizeSub 64 pending.len)
    .ok pending.writeReady
  else .ok pending

/-- One round of the loop, with its shifts. -/
def checkedPush (pending : Pending) (byte : UInt8) : Except Failure Pending := do
  let code := Huffman.encode byte.toNat
  let ready ← pending.checkedReady code
  let _bitLength ← shiftAmount code.bitLength
  let _unused ← shiftAmount (sizeSub 32 code.bitLength)
  .ok (ready.append code)

/-- The tail, with its shift; that of `make_mask` has the same amount. -/
def checkedTail (pending : Pending) : Except Failure Streambuf :=
  if pending.len > 0 then do
    let _bitesLeft ← shiftAmount (sizeSub 64 pending.len)
    .ok pending.writeTail
  else .ok pending.stream

private theorem checkedPush_eq (pending : Pending) (byte : UInt8) (room : pending.len ≤ 64) :
    pending.checkedPush byte = .ok (pending.push byte) := by
  have member := Huffman.encode_mem (show byte.toNat < 257 by have := byte.toNat_lt; omega)
  obtain ⟨-, upper, -⟩ := Huffman.bounds_of_mem _ member
  have used := shiftAmount_of_lt (show (Huffman.encode byte.toNat).bitLength < 64 by omega)
  have unused := shiftAmount_of_lt
    (show sizeSub 32 (Huffman.encode byte.toNat).bitLength < 64 by
      rw [sizeSub, if_pos (by omega)]
      omega)
  have left : sizeSub 64 pending.len = 64 - pending.len := if_pos room
  simp only [checkedPush, push, checkedReady, left, used, unused]
  by_cases full : 64 - pending.len < (Huffman.encode byte.toNat).bitLength
  · have flushed := shiftAmount_of_lt (show 64 - pending.len < 64 by omega)
    simp only [full, ↓reduceIte, flushed, Outcome.ok_bind]
  · simp only [full, ↓reduceIte, Outcome.ok_bind]

/-- No round of the loop shifts by 64 or more. -/
theorem foldlM_checkedPush (data : Bytes) (pending : Pending) (room : pending.len ≤ 64) :
    data.foldlM checkedPush pending = .ok (data.foldl push pending) := by
  induction data generalizing pending with
  | nil => rfl
  | cons byte data ih =>
      rw [List.foldlM_cons, checkedPush_eq pending byte room, Outcome.ok_bind,
        ih _ (push_bits pending byte room).2, List.foldl_cons]

private theorem checkedTail_eq (pending : Pending) (room : pending.len ≤ 64) :
    pending.checkedTail = .ok pending.writeTail := by
  have left : sizeSub 64 pending.len = 64 - pending.len := if_pos room
  rw [checkedTail, left]
  by_cases some : pending.len > 0
  · have shifted := shiftAmount_of_lt (show 64 - pending.len < 64 by omega)
    simp only [some, ↓reduceIte, shifted, Outcome.ok_bind]
  · simp only [writeTail, some, ↓reduceIte]

end Pending

/-- `encode_string(src)`, with its shifts. -/
def EncoderStream.checkedEncodeString (out : EncoderStream) (src : Bytes) :
    Except Failure EncoderStream := do
  let pending ← src.foldlM Pending.checkedPush ⟨out.stream, 0, 0⟩
  let stream ← pending.checkedTail
  .ok { out with stream }

/-- **Packing.** Every string is encoded without an undefined shift. What is appended are
its codes, filled up with ones to whole bytes: as many bytes as its codes take, and as the
estimate says for the strings of a field. -/
theorem encodeString_packs (config : EncoderConfig) (out : EncoderStream) (src : Bytes) :
    out.checkedEncodeString src = .ok (out.encodeString src) ∧
      ∃ body pad, (out.encodeString src).stream.contents = out.stream.contents ++ body ∧
        pad < 8 ∧ Bits.ofBytes body = Huffman.codes src ++ List.replicate pad true ∧
        body.length = (Huffman.estimateLen src + 7) / 8 ∧
        (HeaderField.Admitted src.length → (estimateStringSize config src).2 = .encoded →
          (estimateStringSize config src).1 = body.length) := by
  constructor
  · obtain ⟨-, room⟩ := Pending.foldl_push_bits src ⟨out.stream, 0, 0⟩ (Nat.zero_le _)
    rw [EncoderStream.checkedEncodeString, Pending.foldlM_checkedPush _ _ (Nat.zero_le _),
      Outcome.ok_bind, Pending.checkedTail_eq _ room, Outcome.ok_bind, EncoderStream.encodeString]
  · obtain ⟨body, pad, few, split, bits⟩ := EncoderStream.encodeString_bits out src
    have total := congrArg List.length bits
    rw [Bits.length_ofBytes, List.length_append, Huffman.length_codes,
      List.length_replicate] at total
    have size : body.length = (Huffman.estimateLen src + 7) / 8 := by omega
    refine ⟨body, pad, split, few, bits, size, ?_⟩
    intro admitted flag
    rcases estimateStringSize_cases config admitted with raw | ⟨coded, -⟩
    · rw [raw] at flag
      cases flag
    · rw [coded, size]

/-- The string is sent raw, or all its codes start where they can be read. -/
def Sendable (config : EncoderConfig) (src : Bytes) : Prop :=
  (estimateStringSize config src).2 = .inplace ∨ StringLiteral.Readable 0 src

instance (config : EncoderConfig) (src : Bytes) : Decidable (Sendable config src) :=
  inferInstanceAs (Decidable (_ ∨ _))

/-- What `write_string` appends, and what `string::decode` makes of it. -/
theorem writeString_spec (config : EncoderConfig) (out : EncoderStream) {src : Bytes}
    (admitted : HeaderField.Admitted src.length) :
    ∃ encodedSize body,
      Integer.encodeFlag (estimateStringSize config src).2 (estimateStringSize config src).1 =
        .ok encodedSize ∧
      0 < encodedSize.length ∧ body.length = (estimateStringSize config src).1 ∧
      (out.writeString (estimateStringSize config src) encodedSize src).stream.contents =
        out.stream.contents ++ (encodedSize ++ body) ∧
      ∀ (span : Span) (tail : Bytes), span.bytes = encodedSize ++ (body ++ tail) →
        StringLiteral.decode span =
          if Sendable config src then .ok ⟨encodedSize.length + body.length, src⟩
          else .error .undefinedBehaviour := by
  have size : src.length < 10485760 := HeaderField.length_lt admitted
  have limit : Integer.maxHpackInt = 16777200 := rfl
  rcases estimateStringSize_cases config admitted with raw | ⟨coded, shorter⟩
  · obtain ⟨low, rest, -, written, -⟩ := Integer.encode_decode (by decide) (by decide)
      (Integer.flag_free .inplace) (show src.length ≤ Integer.maxHpackInt by omega)
    have sendable : Sendable config src := .inl (by rw [raw])
    rw [raw]
    refine ⟨_, src, written, Nat.succ_pos _, rfl, ?_, ?_⟩
    · simp only [EncoderStream.writeString, Streambuf.contents_pushBack, List.append_assoc]
    · intro span tail content
      obtain ⟨inner, -, decoded⟩ := StringLiteral.decode_written (by omega) written content
      rw [decoded, if_pos sendable]
  · obtain ⟨low, rest, -, written, -⟩ := Integer.encode_decode (by decide) (by decide)
      (Integer.flag_free .encoded)
      (show (Huffman.estimateLen src + 7) / 8 ≤ Integer.maxHpackInt by omega)
    obtain ⟨body, pad, few, appended, bits⟩ := EncoderStream.encodeString_bits
      ⟨out.stream.pushBack ((StringFlag.encoded.value ||| UInt8.ofNat low) :: rest),
        out.maxSize, out.left⟩ src
    have total := congrArg List.length bits
    rw [Bits.length_ofBytes, List.length_append, Huffman.length_codes,
      List.length_replicate] at total
    have bodySize : body.length = (Huffman.estimateLen src + 7) / 8 := by omega
    have enough := (Huffman.estimateLen_bounds src).1
    have sendable : Sendable config src ↔ StringLiteral.Readable 0 src := by
      simp only [Sendable, coded, reduceCtorEq, false_or]
    rw [coded]
    refine ⟨_, body, written, Nat.succ_pos _, bodySize, ?_, ?_⟩
    · simp only [EncoderStream.writeString, appended, Streambuf.contents_pushBack,
        List.append_assoc]
    · intro span tail content
      rw [← bodySize] at written
      obtain ⟨inner, inside, decoded⟩ := StringLiteral.decode_written (by omega) written content
      have innerSize : inner.size = body.length := by rw [← Span.length_bytes, inside]
      have loop := StringLiteral.readHuffmanLoop_spec src [] (by rw [List.drop_zero, inside, bits])
        few (Nat.zero_le _) (show src.length ≤ inner.size * 8 by omega)
      rw [decoded, StringLiteral.readHuffmanStr, loop]
      by_cases readable : StringLiteral.Readable 0 src
      · simp only [readable, sendable, ↓reduceIte, Outcome.ok_bind, List.nil_append]
      · simp only [readable, sendable, ↓reduceIte, Outcome.error_bind]

/-- The bytes of a string literal: the length and flag of the estimate, then the
string as `write_string` stores it. -/
def stringLiteral (config : EncoderConfig) (src : Bytes) : Except Failure Bytes := do
  let estimation := estimateStringSize config src
  let encodedSize ← Integer.encodeFlag estimation.2 estimation.1
  .ok ((EncoderStream.create 0).writeString estimation encodedSize src).stream.contents

/-- What `write_string` appends to any stream is the string literal. -/
theorem stringLiteral_of_writeString {config : EncoderConfig} {out : EncoderStream}
    {src encodedSize literal : Bytes}
    (sized : Integer.encodeFlag (estimateStringSize config src).2
      (estimateStringSize config src).1 = .ok encodedSize)
    (appended : (out.writeString (estimateStringSize config src) encodedSize src).stream.contents =
      out.stream.contents ++ literal) :
    stringLiteral config src = .ok literal := by
  rw [EncoderStream.writeString_append] at appended
  rw [stringLiteral, sized, Outcome.ok_bind, List.append_cancel_left appended]

/-- A string of a field is written, and it is read back if it can be. -/
theorem stringLiteral_spec (config : EncoderConfig) {src : Bytes}
    (admitted : HeaderField.Admitted src.length) :
    ∃ written, stringLiteral config src = .ok written ∧
      ∀ (span : Span) (tail : Bytes), span.bytes = written ++ tail →
        StringLiteral.decode span =
          if Sendable config src then .ok ⟨written.length, src⟩
          else .error .undefinedBehaviour := by
  obtain ⟨encodedSize, body, sized, -, -, appended, decoded⟩ :=
    writeString_spec config (.create 0) admitted
  refine ⟨encodedSize ++ body, stringLiteral_of_writeString sized appended, ?_⟩
  intro span tail content
  rw [decoded span tail (by rw [content, List.append_assoc]), List.length_append]

/-- **String literal round trip.** A written literal is read back exactly, with
any bytes after it and any memory around it, if and only if it was sent raw or
no code of it covers five bytes. -/
theorem stringLiteral_decode_iff (config : EncoderConfig) (src : Bytes)
    (admitted : HeaderField.Admitted src.length) :
    ∃ written, stringLiteral config src = .ok written ∧
      ∀ (span : Span) (tail : Bytes), span.bytes = written ++ tail →
        (StringLiteral.decode span = .ok ⟨written.length, src⟩ ↔ Sendable config src) := by
  obtain ⟨written, done, decoded⟩ := stringLiteral_spec config admitted
  refine ⟨written, done, ?_⟩
  intro span tail content
  rw [decoded span tail content]
  by_cases sendable : Sendable config src
  · simp only [sendable, ↓reduceIte]
  · simp only [sendable, ↓reduceIte, reduceCtorEq]

/-- A media type is read back, with other bytes behind it. -/
theorem stringLiteral_decode_text : ∃ written, stringLiteral {} (ascii "text/html") = .ok written ∧
    StringLiteral.decode (Span.ofBytes (fun _ => 0) (written ++ [0xff])) =
      .ok ⟨written.length, ascii "text/html"⟩ := by
  obtain ⟨written, done, decoded⟩ :=
    stringLiteral_decode_iff {} (ascii "text/html") (by decide +kernel)
  exact ⟨written, done, (decoded _ [0xff] (Span.bytes_ofBytes _ _)).mpr (by decide +kernel)⟩

/-- Twelve zeros bring the reader to bit 60, where the 28-bit code of the byte 2
covers five bytes. -/
theorem stringLiteral_five_byte_code :
    HeaderField.Admitted (List.replicate 12 0x30 ++ [0x02] : Bytes).length ∧
      (stringLiteral {} (List.replicate 12 0x30 ++ [0x02]) >>= fun written =>
        StringLiteral.decode (Span.ofBytes (fun _ => 0) written)) =
          .error .undefinedBehaviour := by
  decide +kernel

end H2pp.Hpack

import H2pp.Hpack.Bitstream
import H2pp.Hpack.Integer
import H2pp.Lib.Outcome

/-! # Reading string literals

`hpack/string.cpp`. A string literal is a length with a flag, then that many
bytes, sent as they are or as Huffman codes with the last byte filled up with
ones. A Huffman code is found by trying every allowed length at the current bit
position.
-/

namespace H2pp.Hpack.StringLiteral

open Utils

/-- The loop over the code lengths in `read_huffman_str`: the first length at
which a symbol is found, with that symbol. -/
def findCode (src : Span) (pos : Nat) : List Nat → Except Failure (Option (Nat × Nat))
  | [] => .ok none
  | bitLen :: codeLengths => do
      let hcode ← takeBits src pos bitLen
      match Huffman.decode ⟨hcode, bitLen⟩ with
      | some index => .ok (some (index, bitLen))
      | none => findCode src pos codeLengths

/-- The check for EOS padding: fewer than eight bits are left and all are ones. -/
def isPadding (src : Span) (pos : Nat) : Bool :=
  if src.size * 8 - pos < 8 then
    let mask := makeMask 8 (src.size * 8 - pos)
    mask = ((src.mem ((src.size : Int) - 1)).toNat &&& mask)
  else false

/-- The loop of `read_huffman_str`. Every round moves on by at least one bit, so
after as many rounds as there are bits the stream is empty. -/
def readHuffmanLoop : Nat → Span → Nat → Bytes → Except Failure Bytes
  | 0, _, _, result => .ok result
  | fuel + 1, src, pos, result =>
      if pos = src.size * 8 then .ok result
      else if isPadding src pos then .ok result
      else do
        match ← findCode src pos Huffman.codeLenArray with
        | none => .error (.invalidArgument "Can't decode huffman code")
        | some (index, codeLen) =>
            if index = Huffman.eos then .ok result
            else
              readHuffmanLoop fuel src (commitBits src pos codeLen) (result ++ [UInt8.ofNat index])

/-- `read_huffman_str(src)`. -/
def readHuffmanStr (src : Span) : Except Failure Bytes :=
  readHuffmanLoop (src.size * 8) src 0 []

/-- `string::decoded_result`. -/
structure DecodedResult where
  usedBytes : Nat
  value : Bytes
  deriving DecidableEq, Repr

/-- `string::decode(src)`. -/
def decode (src : Span) : Except Failure DecodedResult :=
  if src.size = 0 then .error (.invalidArgument "A source can't be empty")
  else do
    let isHuffman := src.mem 0 &&& StringFlag.encoded.value ≠ 0
    let strLength ← Integer.decode 1 src.bytes
    let rest := src.subspan strLength.usedBytes
    if rest.size < strLength.value then
      .error (.invalidArgument "Not enough input data for string")
    else if ¬ isHuffman then
      .ok ⟨strLength.usedBytes + strLength.value, rest.bytes.take strLength.value⟩
    else do
      let value ← readHuffmanStr (rest.first strLength.value)
      .ok ⟨strLength.usedBytes + strLength.value, value⟩

/-- Every code of `data`, the first one at bit `pos`, starts where it covers at
most four bytes. -/
def Readable : Nat → Bytes → Prop
  | _, [] => True
  | pos, byte :: data =>
      pos % 8 + (Huffman.encode byte.toNat).bitLength < 32 ∧
        Readable (pos + (Huffman.encode byte.toNat).bitLength) data

instance Readable.decidable : (pos : Nat) → (data : Bytes) → Decidable (Readable pos data)
  | _, [] => isTrue trivial
  | pos, byte :: data =>
      have := Readable.decidable (pos + (Huffman.encode byte.toNat).bitLength) data
      inferInstanceAs (Decidable (_ ∧ _))

/-- The code lengths are tried in increasing order. -/
theorem codeLenArray_sorted : Huffman.codeLenArray.Pairwise (· < ·) := by decide

/-- Where the memory goes on with the code of `value`, the search ends at that code,
unless a length it tries makes the shift undefined. -/
theorem findCode_slice {src : Span} {pos value : Nat} (bound : value < 257)
    (ahead : src.slice pos (Huffman.encode value).bitLength = (Huffman.encode value).bits)
    (lengths : List Nat) (sorted : lengths.Pairwise (· < ·))
    (member : (Huffman.encode value).bitLength ∈ lengths) :
    findCode src pos lengths =
      if pos % 8 + (Huffman.encode value).bitLength < 32 then
        .ok (some (value, (Huffman.encode value).bitLength))
      else .error .undefinedBehaviour := by
  obtain ⟨lower, upper, -⟩ := Huffman.bounds_of_mem _ (Huffman.encode_mem bound)
  induction lengths with
  | nil => exact absurd member List.not_mem_nil
  | cons len lengths ih =>
      obtain ⟨least, sortedRest⟩ := List.pairwise_cons.mp sorted
      have notLonger : len ≤ (Huffman.encode value).bitLength := by
        rcases List.mem_cons.mp member with same | later
        · omega
        · exact Nat.le_of_lt (least _ later)
      have taken := takeBits_spec src pos len (by omega)
      by_cases four : pos % 8 + len < 32
      · rw [if_pos four] at taken
        obtain ⟨code, read, small, bits⟩ := taken
        rw [← Span.take_slice src pos notLonger, ahead] at bits
        have found := Huffman.decode_take bound notLonger bits small
        by_cases whole : len = (Huffman.encode value).bitLength
        · rw [if_pos whole] at found
          rw [← whole, if_pos four, findCode, read]
          simp only [Outcome.ok_bind, found]
        · rw [if_neg whole] at found
          rw [findCode, read]
          simp only [Outcome.ok_bind, found]
          exact ih sortedRest ((List.mem_cons.mp member).resolve_left fun same => whole same.symm)
      · rw [if_neg four] at taken
        rw [if_neg (by omega), findCode, taken]
        rfl

/-- The last bits of a span are the low bits of its last byte. -/
theorem getElem?_ofBytes_back (src : Span) (index : Nat) (low : index < 8)
    (inside : index < 8 * src.size) :
    (Bits.ofBytes src.bytes)[8 * src.size - 1 - index]? =
      some ((src.mem ((src.size : Int) - 1)).toNat.testBit index) := by
  rw [Bits.ofBytes_getElem?, Span.bytes_getElem? _ _ (by omega), Option.map_some,
    show ((8 * src.size - 1 - index) / 8 : Nat) = src.size - 1 by omega,
    show 7 - (8 * src.size - 1 - index) % 8 = index by omega,
    show ((src.size - 1 : Nat) : Int) = (src.size : Int) - 1 by omega]

/-- The padding check accepts exactly fewer than eight bits that are all ones. -/
theorem isPadding_iff (src : Span) (pos : Nat) (inside : pos ≤ 8 * src.size) :
    isPadding src pos ↔ 8 * src.size - pos < 8 ∧
      (Bits.ofBytes src.bytes).drop pos = List.replicate (8 * src.size - pos) true := by
  rw [isPadding, Nat.mul_comm src.size 8]
  by_cases few : 8 * src.size - pos < 8
  · simp only [few, ↓reduceIte, decide_eq_true_eq, true_and]
    rw [makeMask_of_lt few]
    constructor
    · intro masked
      apply List.ext_getElem?
      intro index
      rw [List.getElem?_drop, List.getElem?_replicate]
      by_cases within : index < 8 * src.size - pos
      · have bit := getElem?_ofBytes_back src (8 * src.size - 1 - (pos + index)) (by omega)
          (by omega)
        have one : (src.mem ((src.size : Int) - 1)).toNat.testBit
            (8 * src.size - 1 - (pos + index)) = true := by
          have ones := congrArg (Nat.testBit · (8 * src.size - 1 - (pos + index))) masked
          simp only [Nat.testBit_and, Nat.testBit_two_pow_sub_one,
            show 8 * src.size - 1 - (pos + index) < 8 * src.size - pos by omega, decide_true,
            Bool.and_true] at ones
          exact ones.symm
        rw [show 8 * src.size - 1 - (8 * src.size - 1 - (pos + index)) = pos + index by omega,
          one] at bit
        rw [bit, if_pos within]
      · rw [if_neg within, List.getElem?_eq_none
          (by rw [Bits.length_ofBytes, Span.length_bytes]; omega)]
    · intro ones
      apply Nat.eq_of_testBit_eq
      intro index
      rw [Nat.testBit_and, Nat.testBit_two_pow_sub_one]
      by_cases within : index < 8 * src.size - pos
      · have bit := getElem?_ofBytes_back src index (by omega) (by omega)
        have one := congrArg (fun bits => bits[8 * src.size - 1 - index - pos]?) ones
        simp only [List.getElem?_drop, List.getElem?_replicate,
          show pos + (8 * src.size - 1 - index - pos) = 8 * src.size - 1 - index by omega, bit,
          show 8 * src.size - 1 - index - pos < 8 * src.size - pos by omega, ↓reduceIte,
          Option.some.injEq] at one
        rw [one]
        rfl
      · simp only [within, decide_false, Bool.and_false]
  · simp only [few, ↓reduceIte, Bool.false_eq_true, false_and]

/-- One round in front of the code of `value`, in the span or partly behind it. -/
theorem readHuffmanLoop_code {src : Span} {pos value : Nat} (fuel : Nat) (result : Bytes)
    (bound : value < 257) (more : pos ≠ src.size * 8) (unpadded : ¬ isPadding src pos)
    (ahead : src.slice pos (Huffman.encode value).bitLength = (Huffman.encode value).bits) :
    readHuffmanLoop (fuel + 1) src pos result =
      if pos % 8 + (Huffman.encode value).bitLength < 32 then
        if value = Huffman.eos then .ok result
        else
          readHuffmanLoop fuel src (commitBits src pos (Huffman.encode value).bitLength)
            (result ++ [UInt8.ofNat value])
      else .error .undefinedBehaviour := by
  obtain ⟨-, -, -, -, listed⟩ := Huffman.bounds_of_mem _ (Huffman.encode_mem bound)
  rw [readHuffmanLoop, if_neg more, if_neg unpadded,
    findCode_slice bound ahead _ codeLenArray_sorted listed]
  split
  · rfl
  · rfl

/-- The memory in front of a code that is in the span. -/
theorem slice_of_ahead {src : Span} {pos value : Nat} {rest : List Bool} (bound : value < 257)
    (ahead : (Bits.ofBytes src.bytes).drop pos = (Huffman.encode value).bits ++ rest) :
    src.slice pos (Huffman.encode value).bitLength = (Huffman.encode value).bits ∧
      pos + (Huffman.encode value).bitLength ≤ 8 * src.size ∧
      (Bits.ofBytes src.bytes).drop (pos + (Huffman.encode value).bitLength) = rest := by
  obtain ⟨lower, -⟩ := Huffman.bounds_of_mem _ (Huffman.encode_mem bound)
  have total := congrArg List.length ahead
  rw [List.length_drop, Bits.length_ofBytes, Span.length_bytes, List.length_append,
    Huffman.HuffmanCode.length_bits] at total
  have inside : pos + (Huffman.encode value).bitLength ≤ 8 * src.size := by omega
  refine ⟨?_, inside, ?_⟩
  · rw [Span.slice_eq src pos _ inside, ahead, List.take_left' (Huffman.HuffmanCode.length_bits _)]
  · rw [← List.drop_drop, ahead, List.drop_left' (Huffman.HuffmanCode.length_bits _)]

/-- Bits that are left and are not padding. -/
theorem unpadded_of_ahead {src : Span} {pos : Nat} {bits : List Bool} (inside : pos ≤ 8 * src.size)
    (ahead : (Bits.ofBytes src.bytes).drop pos = bits)
    (unfinished : ∀ count < 8, bits ≠ List.replicate count true) :
    pos ≠ src.size * 8 ∧ ¬ isPadding src pos := by
  have left := congrArg List.length ahead
  rw [List.length_drop, Bits.length_ofBytes, Span.length_bytes] at left
  constructor
  · intro ended
    refine unfinished 0 (by decide) (List.length_eq_zero_iff.mp ?_)
    omega
  · intro padding
    obtain ⟨few, ones⟩ := (isPadding_iff src pos inside).mp padding
    exact unfinished _ few (ahead.symm.trans ones)

/-- Bits that start with a code are not padding. -/
theorem code_ne_padding {value : Nat} (bound : value < 257) (rest : List Bool) (count : Nat)
    (few : count < 8) :
    (Huffman.encode value).bits ++ rest ≠ List.replicate count true := by
  intro same
  have member := Huffman.encode_mem bound
  have length := congrArg List.length same
  rw [List.length_append, Huffman.HuffmanCode.length_bits, List.length_replicate] at length
  have zero : false ∈ (Huffman.encode value).bits ++ rest :=
    List.mem_append_left _ (Huffman.false_mem_bits _ member (by omega))
  rw [same] at zero
  exact Bool.false_ne_true (List.eq_of_mem_replicate zero)

/-- One round in front of a code that is in the span. -/
theorem readHuffmanLoop_ahead {src : Span} {pos value : Nat} {rest : List Bool} (fuel : Nat)
    (result : Bytes) (bound : value < 257) (inside : pos ≤ 8 * src.size)
    (ahead : (Bits.ofBytes src.bytes).drop pos = (Huffman.encode value).bits ++ rest) :
    readHuffmanLoop (fuel + 1) src pos result =
      if pos % 8 + (Huffman.encode value).bitLength < 32 then
        if value = Huffman.eos then .ok result
        else
          readHuffmanLoop fuel src (pos + (Huffman.encode value).bitLength)
            (result ++ [UInt8.ofNat value])
      else .error .undefinedBehaviour := by
  obtain ⟨code, within, -⟩ := slice_of_ahead bound ahead
  obtain ⟨more, unpadded⟩ := unpadded_of_ahead inside ahead (code_ne_padding bound rest)
  have moved : commitBits src pos (Huffman.encode value).bitLength =
      pos + (Huffman.encode value).bitLength := by
    rw [commitBits]
    omega
  rw [readHuffmanLoop_code fuel result bound more unpadded code, moved]

/-- **Reading Huffman codes.** In front of the codes of `data` and the padding,
the loop returns `data` when all codes are readable where they start, and
reaches an undefined shift otherwise. -/
theorem readHuffmanLoop_spec {src : Span} (data : Bytes) {fuel pos pad : Nat} (result : Bytes)
    (ahead : (Bits.ofBytes src.bytes).drop pos =
      Huffman.codes data ++ List.replicate pad true)
    (padBound : pad < 8) (inside : pos ≤ 8 * src.size) (enough : data.length ≤ fuel) :
    readHuffmanLoop fuel src pos result =
      if Readable pos data then .ok (result ++ data) else .error .undefinedBehaviour := by
  induction data generalizing fuel pos result with
  | nil =>
      simp only [Readable, ↓reduceIte, List.append_nil]
      cases fuel with
      | zero => rfl
      | succ fuel =>
          have left := congrArg List.length ahead
          rw [List.length_drop, Bits.length_ofBytes, Span.length_bytes, Huffman.codes_nil,
            List.nil_append, List.length_replicate] at left
          rw [Huffman.codes_nil, List.nil_append, ← left] at ahead
          have padding : isPadding src pos := (isPadding_iff src pos inside).mpr
            ⟨by omega, ahead⟩
          simp only [readHuffmanLoop, padding, ↓reduceIte, ite_self]
  | cons byte data ih =>
      have bound : byte.toNat < 257 := Nat.lt_succ_of_lt byte.toNat_lt
      have notEos : byte.toNat ≠ Huffman.eos := Nat.ne_of_lt byte.toNat_lt
      rw [Huffman.codes_cons, List.append_assoc] at ahead
      obtain ⟨-, within, next⟩ := slice_of_ahead bound ahead
      cases fuel with
      | zero => exact absurd enough (Nat.not_succ_le_zero _)
      | succ fuel =>
          rw [readHuffmanLoop_ahead fuel result bound inside ahead, if_neg notEos,
            UInt8.ofNat_toNat, ih (result ++ [byte]) next within (Nat.le_of_succ_le_succ enough)]
          simp only [Readable]
          by_cases four : pos % 8 + (Huffman.encode byte.toNat).bitLength < 32
          · simp only [four, ↓reduceIte, true_and, List.append_assoc, List.singleton_append]
          · simp only [four, ↓reduceIte, false_and]

/-- The first byte of a written length shows the string flag. -/
theorem flag_of_front : ∀ low < 128,
    (StringFlag.encoded.value ||| UInt8.ofNat low) &&& StringFlag.encoded.value ≠ 0 ∧
      (StringFlag.inplace.value ||| UInt8.ofNat low) &&& StringFlag.encoded.value = 0 := by
  decide

/-- A whole literal, whatever follows it: the body as it is, or what the Huffman reader
makes of it. -/
theorem decode_literal {src : Span} {lengthBytes body tail : Bytes}
    (length : Integer.decode 1 lengthBytes = .ok ⟨lengthBytes.length, body.length⟩)
    (content : src.bytes = lengthBytes ++ (body ++ tail)) :
    ((src.subspan lengthBytes.length).first body.length).bytes = body ∧
      decode src =
        if lengthBytes.headD 0 &&& StringFlag.encoded.value = 0 then
          .ok ⟨lengthBytes.length + body.length, body⟩
        else
          readHuffmanStr ((src.subspan lengthBytes.length).first body.length) >>= fun value =>
            .ok ⟨lengthBytes.length + body.length, value⟩ := by
  obtain ⟨read, some, -⟩ := Integer.decode_append length (body ++ tail)
  have total := congrArg List.length content
  rw [Span.length_bytes, List.length_append, List.length_append] at total
  have front : src.mem 0 = lengthBytes.headD 0 := by
    cases lengthBytes with
    | nil => cases some
    | cons first rest => exact Span.front_of_bytes content
  have remaining : (src.subspan lengthBytes.length).bytes = body ++ tail := by
    rw [Span.bytes_subspan, content, List.drop_left]
  have size : (src.subspan lengthBytes.length).size = body.length + tail.length := by
    rw [← Span.length_bytes, remaining, List.length_append]
  constructor
  · rw [Span.bytes_first _ _ (by omega), remaining, List.take_left]
  · rw [decode, if_neg (by simp only at some; omega), content, read]
    simp only [Outcome.ok_bind, front, size, remaining, List.take_left,
      show ¬ body.length + tail.length < body.length by omega, ↓reduceIte, ne_eq, Decidable.not_not]

/-- Reading a literal written with its length and flag. -/
theorem decode_written {src : Span} {flag : StringFlag} {lengthBytes body tail : Bytes}
    (bound : body.length ≤ Integer.maxHpackInt)
    (written : Integer.encodeFlag flag body.length = .ok lengthBytes)
    (content : src.bytes = lengthBytes ++ (body ++ tail)) :
    ∃ inner : Span, inner.bytes = body ∧
      decode src = match flag with
        | .inplace => .ok ⟨lengthBytes.length + body.length, body⟩
        | .encoded => readHuffmanStr inner >>= fun value =>
            .ok ⟨lengthBytes.length + body.length, value⟩ := by
  obtain ⟨low, rest, small, encoded, decoded⟩ := Integer.encode_decode
    (by decide) (by decide) (Integer.flag_free flag) bound
  rw [Integer.encodeFlag, encoded] at written
  cases written
  have length := decoded []
  rw [List.append_nil, Nat.add_comm] at length
  obtain ⟨inside, read⟩ := decode_literal length content
  obtain ⟨isEncoded, isInplace⟩ := flag_of_front low small
  refine ⟨_, inside, ?_⟩
  rw [read]
  cases flag with
  | inplace => exact if_pos isInplace
  | encoded => exact if_neg isEncoded

end H2pp.Hpack.StringLiteral

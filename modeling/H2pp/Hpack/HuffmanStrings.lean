import H2pp.Hpack.EncoderStream
import H2pp.Hpack.Representation

/-! # Arbitrary Huffman strings

What `read_huffman_str` makes of bytes that need not be an encoded string. The code is
complete, so some code starts at every position if the memory behind the string is read
as well, and no string is ever refused. The result depends on that memory as soon as the
string ends inside a code that is not padding.
-/

namespace H2pp.Hpack.StringLiteral

open Utils

/-- Reading `bits`, the first of them at bit `pos`, needs no other bits, and gives
`data`: there are only codes that cover at most four bytes, up to the padding or to a
whole end-of-string code. -/
inductive Contained : Nat → List Bool → Bytes → Prop
  | padding {pos count : Nat} (few : count < 8) : Contained pos (List.replicate count true) []
  | eos {pos : Nat} {rest : List Bool}
      (fits : pos % 8 + (Huffman.encode Huffman.eos).bitLength < 32) :
      Contained pos ((Huffman.encode Huffman.eos).bits ++ rest) []
  | code {pos : Nat} {byte : UInt8} {rest : List Bool} {data : Bytes}
      (fits : pos % 8 + (Huffman.encode byte.toNat).bitLength < 32)
      (later : Contained (pos + (Huffman.encode byte.toNat).bitLength) rest data) :
      Contained pos ((Huffman.encode byte.toNat).bits ++ rest) (byte :: data)

variable {src : Span} {pos : Nat}

private theorem eos_bound : Huffman.eos < 257 := by decide

/-- What is contained is read alike in any memory. -/
theorem Contained.read {bits : List Bool} {data : Bytes} (contained : Contained pos bits data)
    {fuel : Nat} (result : Bytes) (ahead : (Bits.ofBytes src.bytes).drop pos = bits)
    (inside : pos ≤ 8 * src.size) (enough : bits.length ≤ fuel) :
    readHuffmanLoop fuel src pos result = .ok (result ++ data) := by
  induction contained generalizing fuel result with
  | padding few =>
      rw [readHuffmanLoop_spec [] result ahead few inside (Nat.zero_le _)]
      exact if_pos trivial
  | @eos pos rest fits =>
      obtain ⟨lower, -⟩ := Huffman.bounds_of_mem _ (Huffman.encode_mem eos_bound)
      rw [List.length_append, Huffman.HuffmanCode.length_bits] at enough
      obtain ⟨fuel, rfl⟩ := Nat.exists_eq_add_of_lt (show 0 < fuel by omega)
      rw [readHuffmanLoop_ahead _ result eos_bound inside ahead, if_pos fits, if_pos rfl,
        List.append_nil]
  | @code pos byte rest data fits later ih =>
      have bound : byte.toNat < 257 := Nat.lt_succ_of_lt byte.toNat_lt
      have notEos : byte.toNat ≠ Huffman.eos := Nat.ne_of_lt byte.toNat_lt
      obtain ⟨lower, -⟩ := Huffman.encode_bounds byte
      rw [List.length_append, Huffman.HuffmanCode.length_bits] at enough
      obtain ⟨-, within, next⟩ := slice_of_ahead bound ahead
      obtain ⟨fuel, rfl⟩ := Nat.exists_eq_add_of_lt (show 0 < fuel by omega)
      rw [readHuffmanLoop_ahead _ result bound inside ahead, if_pos fits, if_neg notEos,
        ih _ next within (by omega), UInt8.ofNat_toNat, List.append_assoc, List.singleton_append]

/-! ## What is not contained -/

/-- The memory behind the span is filled with one byte, made of eight equal bits. -/
structure FilledWith (src : Span) (bit : Bool) : Prop where
  behind : ∀ index : Nat, src.size ≤ index → ∀ place < 8, (src.mem index).toNat.testBit place = bit

/-- The bits read from a span with filled memory behind it. -/
theorem FilledWith.slice_eq {bit : Bool} (filled : FilledWith src bit) {len count : Nat}
    (bound : pos + len ≤ 8 * src.size + count) :
    src.slice pos len =
      ((Bits.ofBytes src.bytes ++ List.replicate count bit).drop pos).take len := by
  apply List.ext_getElem?
  intro index
  by_cases below : index < len
  · rw [List.getElem?_take_of_lt below, List.getElem?_drop, Span.slice, List.getElem?_map,
      List.getElem?_range below, Option.map_some, Span.bit]
    by_cases inside : pos + index < 8 * src.size
    · rw [List.getElem?_append_left (by rw [Bits.length_ofBytes, Span.length_bytes]; exact inside),
        Bits.ofBytes_getElem?, Span.bytes_getElem? _ _ (by omega), Option.map_some]
    · rw [List.getElem?_append_right (by rw [Bits.length_ofBytes, Span.length_bytes]; omega),
        Bits.length_ofBytes, Span.length_bytes, List.getElem?_replicate, if_pos (by omega),
        filled.behind _ (by omega) _ (by omega)]
  · rw [List.getElem?_eq_none (by rw [Span.length_slice]; omega),
      List.getElem?_eq_none (by rw [List.length_take]; omega)]

private theorem readHuffmanLoop_ended (fuel : Nat) (result : Bytes) :
    readHuffmanLoop fuel src (src.size * 8) result = .ok result := by
  cases fuel with
  | zero => rfl
  | succ fuel => rw [readHuffmanLoop, if_pos rfl]

/-- What is appended for a symbol. -/
def symbolBytes (value : Nat) : Bytes := if value = Huffman.eos then [] else [UInt8.ofNat value]

/-- All symbols but EOS are bytes. -/
theorem toNat_ofNat_symbol {value : Nat} (bound : value < 257) (isByte : value ≠ Huffman.eos) :
    (UInt8.ofNat value).toNat = value :=
  UInt8.toNat_ofNat_of_lt' (Nat.lt_of_le_of_ne (Nat.le_of_lt_succ bound) isByte)

private theorem symbolBytes_inj {first second : Nat} (firstBound : first < 257)
    (secondBound : second < 257) (same : symbolBytes first = symbolBytes second) :
    first = second := by
  unfold symbolBytes at same
  by_cases firstEos : first = Huffman.eos
  · by_cases secondEos : second = Huffman.eos
    · rw [firstEos, secondEos]
    · rw [if_pos firstEos, if_neg secondEos] at same
      cases same
  · by_cases secondEos : second = Huffman.eos
    · rw [if_neg firstEos, if_pos secondEos] at same
      cases same
    · rw [if_neg firstEos, if_neg secondEos, List.cons.injEq] at same
      rw [← toNat_ofNat_symbol firstBound firstEos, same.1,
        toNat_ofNat_symbol secondBound secondEos]

/-- A string that ends inside a code is read with the bits behind it. -/
theorem readHuffmanLoop_cut {bits : List Bool} {bit : Bool} (filled : FilledWith src bit)
    (fuel : Nat) (result : Bytes) (inside : pos ≤ 8 * src.size)
    (ahead : (Bits.ofBytes src.bytes).drop pos = bits)
    (unfinished : ∀ count < 8, bits ≠ List.replicate count true)
    (cut : ∀ value < 257, ∀ rest, bits ≠ (Huffman.encode value).bits ++ rest) :
    ∃ value < 257, ∃ more, (Huffman.encode value).bits = bits ++ bit :: more ∧
      readHuffmanLoop (fuel + 1) src pos result =
        if pos % 8 + (Huffman.encode value).bitLength < 32 then .ok (result ++ symbolBytes value)
        else .error .undefinedBehaviour := by
  have left := congrArg List.length ahead
  rw [List.length_drop, Bits.length_ofBytes, Span.length_bytes] at left
  obtain ⟨value, bound, rest, split⟩ := Huffman.exists_code
    (show 30 ≤ (bits ++ List.replicate 30 bit).length by
      rw [List.length_append, List.length_replicate]; omega)
  rcases List.append_eq_append_iff.mp split with ⟨tail, code, ones⟩ | ⟨tail, whole, -⟩
  · cases tail with
    | nil => exact absurd (by rw [code, List.append_nil, List.append_nil]) (cut value bound [])
    | cons first more =>
        have member : first ∈ List.replicate 30 bit := by
          rw [ones]
          exact List.mem_cons_self
        have same : first = bit := List.eq_of_mem_replicate member
        rw [same] at code
        have length := congrArg List.length code
        rw [Huffman.HuffmanCode.length_bits, List.length_append, List.length_cons] at length
        obtain ⟨-, upper, -⟩ := Huffman.bounds_of_mem _ (Huffman.encode_mem bound)
        have slice : src.slice pos (Huffman.encode value).bitLength =
            (Huffman.encode value).bits := by
          rw [@FilledWith.slice_eq _ _ _ filled _ 30 (by omega),
            List.drop_append_of_le_length (by rw [Bits.length_ofBytes, Span.length_bytes]; omega),
            ahead, split, List.take_left' (Huffman.HuffmanCode.length_bits _)]
        obtain ⟨further, unpadded⟩ := unpadded_of_ahead inside ahead unfinished
        have moved : commitBits src pos (Huffman.encode value).bitLength = src.size * 8 := by
          rw [commitBits]
          omega
        refine ⟨value, bound, more, code, ?_⟩
        rw [readHuffmanLoop_code fuel result bound further unpadded slice, moved,
          readHuffmanLoop_ended, symbolBytes]
        split
        · split
          · rw [List.append_nil]
          · rfl
        · rfl
  · exact absurd whole (cut value bound tail)

/-- **Leaking.** A string that is not contained is read differently with zeros and with
ones behind it, or has no defined result. -/
theorem readHuffmanLoop_leaks {zeros ones : Span} (zeroed : FilledWith zeros false)
    (filled : FilledWith ones true) (same : zeros.bytes = ones.bytes) {fuel : Nat}
    (result : Bytes) {bits : List Bool} (inside : pos ≤ 8 * zeros.size)
    (ahead : (Bits.ofBytes zeros.bytes).drop pos = bits) (enough : bits.length ≤ fuel)
    (leaves : ¬ ∃ data, Contained pos bits data) :
    readHuffmanLoop fuel zeros pos result = .error .undefinedBehaviour ∨
      readHuffmanLoop fuel ones pos result = .error .undefinedBehaviour ∨
        ∃ first second, readHuffmanLoop fuel zeros pos result = .ok first ∧
          readHuffmanLoop fuel ones pos result = .ok second ∧ first ≠ second := by
  have size : ones.size = zeros.size := by rw [← Span.length_bytes, ← same, Span.length_bytes]
  have unfinished : ∀ count < 8, bits ≠ List.replicate count true := fun count few padding =>
    leaves ⟨[], padding ▸ .padding few⟩
  induction fuel generalizing pos result bits with
  | zero =>
      exact absurd (List.length_eq_zero_iff.mp (Nat.le_zero.mp enough)) (unfinished 0 (by decide))
  | succ fuel ih =>
      by_cases whole : ∃ value < 257, ∃ rest, bits = (Huffman.encode value).bits ++ rest
      · obtain ⟨value, bound, rest, rfl⟩ := whole
        obtain ⟨lower, -⟩ := Huffman.bounds_of_mem _ (Huffman.encode_mem bound)
        obtain ⟨-, within, next⟩ := slice_of_ahead bound ahead
        rw [readHuffmanLoop_ahead fuel result bound inside ahead,
          readHuffmanLoop_ahead fuel result bound (by omega) (same ▸ ahead)]
        by_cases fits : pos % 8 + (Huffman.encode value).bitLength < 32
        · rw [if_pos fits, if_pos fits]
          by_cases isEos : value = Huffman.eos
          · subst isEos
            exact absurd ⟨[], .eos fits⟩ leaves
          · have byte := toNat_ofNat_symbol bound isEos
            rw [if_neg isEos, if_neg isEos]
            rw [List.length_append, Huffman.HuffmanCode.length_bits] at enough
            have later :
                ¬ ∃ data, Contained (pos + (Huffman.encode value).bitLength) rest data := by
              rintro ⟨data, contained⟩
              rw [← byte] at fits contained leaves
              exact leaves ⟨_, .code fits contained⟩
            exact ih _ within next (by omega) later
              fun count few padding => later ⟨[], padding ▸ .padding few⟩
        · rw [if_neg fits]
          exact .inl rfl
      · have cut : ∀ value < 257, ∀ rest, bits ≠ (Huffman.encode value).bits ++ rest :=
          fun value bound rest split => whole ⟨value, bound, rest, split⟩
        obtain ⟨first, firstBound, firstMore, firstCode, readFirst⟩ :=
          readHuffmanLoop_cut zeroed fuel result inside ahead unfinished cut
        obtain ⟨second, secondBound, secondMore, secondCode, readSecond⟩ :=
          readHuffmanLoop_cut filled fuel result (by omega) (same ▸ ahead) unfinished cut
        have differ : first ≠ second := by
          rintro rfl
          rw [firstCode, List.append_cancel_left_eq] at secondCode
          cases secondCode
        rw [readFirst, readSecond]
        by_cases firstFits : pos % 8 + (Huffman.encode first).bitLength < 32
        · by_cases secondFits : pos % 8 + (Huffman.encode second).bitLength < 32
          · rw [if_pos firstFits, if_pos secondFits]
            refine .inr (.inr ⟨_, _, rfl, rfl, fun equal => differ ?_⟩)
            exact symbolBytes_inj firstBound secondBound (List.append_cancel_left equal)
          · exact .inr (.inl (if_neg secondFits))
        · exact .inl (if_neg firstFits)

private theorem length_bits_le (src : Span) : (Bits.ofBytes src.bytes).length ≤ src.size * 8 := by
  rw [Bits.length_ofBytes, Span.length_bytes, Nat.mul_comm]

private theorem readHuffmanStr_contained {data : Bytes}
    (contained : Contained 0 (Bits.ofBytes src.bytes) data) : readHuffmanStr src = .ok data :=
  contained.read [] rfl (Nat.zero_le _) (length_bits_le src)

private theorem readHuffmanStr_leaks {zeros ones : Span} (zeroed : FilledWith zeros false)
    (filled : FilledWith ones true) (same : zeros.bytes = ones.bytes)
    (leaves : ¬ ∃ data, Contained 0 (Bits.ofBytes zeros.bytes) data) :
    readHuffmanStr zeros = .error .undefinedBehaviour ∨
      readHuffmanStr ones = .error .undefinedBehaviour ∨
        ∃ first second, readHuffmanStr zeros = .ok first ∧ readHuffmanStr ones = .ok second ∧
          first ≠ second := by
  have size : ones.size = zeros.size := by rw [← Span.length_bytes, ← same, Span.length_bytes]
  rw [readHuffmanStr, readHuffmanStr, size]
  exact readHuffmanLoop_leaks zeroed filled same [] (Nat.zero_le _) rfl (length_bits_le zeros)
    leaves

/-! ## Literals in any memory -/

/-- A literal has one outcome, whatever stands before and after it in memory. -/
def Independent (literal : Bytes) : Prop :=
  ∃ outcome, outcome ≠ .error .undefinedBehaviour ∧
    ∀ (src : Span) (tail : Bytes), src.bytes = literal ++ tail → decode src = outcome

/-- The string inside a literal that is alone in memory filled with one byte. -/
theorem filledWith_literal {byte : UInt8} {bit : Bool}
    (uniform : ∀ place < 8, byte.toNat.testBit place = bit) (lengthBytes body : Bytes) :
    FilledWith (((Span.ofBytes (fun _ => byte) (lengthBytes ++ body)).subspan
      lengthBytes.length).first body.length) bit := by
  refine ⟨fun index behind place low => ?_⟩
  have beyond : (Span.ofBytes (fun _ => byte) (lengthBytes ++ body)).mem
      ((index : Int) + (lengthBytes.length : Nat)) = byte := by
    rw [← Int.natCast_add]
    have outside : body.length ≤ index := behind
    simp only [Span.ofBytes, Int.natCast_nonneg, ↓reduceIte, Int.toNat_natCast]
    rw [List.getD_eq_getElem?_getD, List.getElem?_eq_none (by rw [List.length_append]; omega),
      Option.getD_none]
  have found := uniform place low
  rw [← beyond] at found
  exact found

/-- **Literals and their surroundings.** A whole string literal has the same outcome in
any memory exactly if it is not Huffman coded or its codes are contained in it. -/
theorem literal_independent_iff {lengthBytes body : Bytes}
    (length : Integer.decode 1 lengthBytes = .ok ⟨lengthBytes.length, body.length⟩) :
    Independent (lengthBytes ++ body) ↔
      lengthBytes.headD 0 &&& StringFlag.encoded.value = 0 ∨
        ∃ data, Contained 0 (Bits.ofBytes body) data := by
  constructor
  · rintro ⟨outcome, defined, alike⟩
    by_contra neither
    obtain ⟨coded, leaves⟩ := not_or.mp neither
    have read (byte : UInt8) := @decode_literal
      (Span.ofBytes (fun _ => byte) (lengthBytes ++ body)) lengthBytes body [] length
      (by rw [Span.bytes_ofBytes, List.append_nil])
    have always (byte : UInt8) := alike (Span.ofBytes (fun _ => byte) (lengthBytes ++ body)) []
      (by rw [Span.bytes_ofBytes, List.append_nil])
    obtain ⟨zeroBytes, zeroRead⟩ := read 0
    obtain ⟨oneBytes, oneRead⟩ := read 255
    rw [always, if_neg coded] at zeroRead oneRead
    rcases readHuffmanStr_leaks (filledWith_literal (by decide) lengthBytes body)
      (filledWith_literal (by decide) lengthBytes body) (zeroBytes.trans oneBytes.symm)
      (by rw [zeroBytes]; exact leaves) with zero | one | ⟨first, second, zero, one, differ⟩
    · rw [zero] at zeroRead
      exact defined zeroRead
    · rw [one] at oneRead
      exact defined oneRead
    · rw [zero] at zeroRead
      rw [one, zeroRead] at oneRead
      exact differ (DecodedResult.mk.inj (Except.ok.inj oneRead)).2
  · intro holds
    by_cases plain : lengthBytes.headD 0 &&& StringFlag.encoded.value = 0
    · refine ⟨.ok ⟨lengthBytes.length + body.length, body⟩, Outcome.ok_ne_error _ _, ?_⟩
      intro src tail content
      rw [(decode_literal length (by rw [content, List.append_assoc])).2, if_pos plain]
    · obtain ⟨data, contained⟩ := holds.resolve_left plain
      refine ⟨.ok ⟨lengthBytes.length + body.length, data⟩, Outcome.ok_ne_error _ _, ?_⟩
      intro src tail content
      obtain ⟨inside, read⟩ := decode_literal length (by rw [content, List.append_assoc])
      rw [read, if_neg plain, readHuffmanStr_contained (by rw [inside]; exact contained)]
      rfl

/-- The letter `a`, with its byte filled up with ones. -/
theorem literal_independent_padded : Independent ([0x81] ++ [0x1f]) := by
  have split : Bits.ofBytes [0x1f] =
      (Huffman.encode (97 : UInt8).toNat).bits ++ List.replicate 3 true := by
    decide +kernel
  have contained : Contained 0 (Bits.ofBytes [0x1f]) [97] := by
    rw [split]
    exact .code (by decide +kernel) (.padding (by decide))
  exact (@literal_independent_iff [0x81] [0x1f] (by rfl)).mpr (.inr ⟨_, contained⟩)

/-- A byte of zeros is the code of `0` and three bits of another code, which is
completed with what comes next. -/
theorem literal_depends_unpadded :
    decode (Span.ofBytes (fun _ => 0) [0x81, 0x00]) = .ok ⟨2, ascii "00"⟩ ∧
      decode (Span.ofBytes (fun _ => 0xff) [0x81, 0x00]) = .ok ⟨2, ascii "0a"⟩ := by
  decide +kernel

/-! ## What is accepted -/

/-- `src` is the string `data`, encoded: its codes and fewer than eight ones. -/
def Encodes (data src : Bytes) : Prop :=
  ∃ pad < 8, Bits.ofBytes src = Huffman.codes data ++ List.replicate pad true

/-- The encoding is what `encode_string` writes. -/
theorem Encodes.reproduced {data bytes : Bytes} (encodes : Encodes data bytes) :
    ((EncoderStream.create 0).encodeString data).stream.contents = bytes := by
  obtain ⟨pad, few, bits⟩ := encodes
  obtain ⟨body, other, fewOther, split, written⟩ :=
    EncoderStream.encodeString_bits (.create 0) data
  rw [split, Bits.padded_unique few fewOther bits written]
  rfl

/-- Some code starts at every position. -/
theorem exists_code (src : Span) (pos : Nat) :
    ∃ value < 257,
      src.slice pos (Huffman.encode value).bitLength = (Huffman.encode value).bits := by
  obtain ⟨value, bound, rest, split⟩ := Huffman.exists_code
    (show 30 ≤ (src.slice pos 30).length by rw [Span.length_slice])
  obtain ⟨-, upper, -⟩ := Huffman.bounds_of_mem _ (Huffman.encode_mem bound)
  refine ⟨value, bound, ?_⟩
  rw [← Span.take_slice src pos upper, split, List.take_left' (Huffman.HuffmanCode.length_bits _)]

/-- The reader returns a string, unless a shift is undefined. -/
theorem readHuffmanLoop_accepts (fuel : Nat) (result : Bytes) :
    (∃ data, readHuffmanLoop fuel src pos result = .ok data) ∨
      readHuffmanLoop fuel src pos result = .error .undefinedBehaviour := by
  induction fuel generalizing pos result with
  | zero => exact .inl ⟨result, rfl⟩
  | succ fuel ih =>
      by_cases ended : pos = src.size * 8
      · exact .inl ⟨result, by rw [readHuffmanLoop, if_pos ended]⟩
      · by_cases padding : isPadding src pos
        · exact .inl ⟨result, by rw [readHuffmanLoop, if_neg ended, if_pos padding]⟩
        · obtain ⟨value, bound, code⟩ := exists_code src pos
          rw [readHuffmanLoop_code fuel result bound ended padding code]
          split
          · split
            · exact .inl ⟨result, rfl⟩
            · exact ih _
          · exact .inr rfl

/-- `read_huffman_str` returns a string only for its encoding, and throws for bytes that
encode no string. -/
def AcceptsEncodings (src : Span) : Prop :=
  (∀ data, readHuffmanStr src = .ok data → Encodes data src.bytes ∧
      ((EncoderStream.create 0).encodeString data).stream.contents = src.bytes) ∧
    ((¬ ∃ data, Encodes data src.bytes) →
      ∃ failure, failure ≠ .undefinedBehaviour ∧ readHuffmanStr src = .error failure)

/-- **What is accepted.** Only on encodings of strings does `read_huffman_str` behave as
it should: nothing else is refused. -/
theorem accepts_encodings_iff (src : Span) :
    AcceptsEncodings src ↔ ∃ data, Encodes data src.bytes := by
  constructor
  · rintro ⟨-, refuses⟩
    by_contra none
    obtain ⟨failure, thrown, failed⟩ := refuses none
    rcases @readHuffmanLoop_accepts src 0 (src.size * 8) [] with ⟨data, read⟩ | undefined
    · rw [readHuffmanStr, read] at failed
      cases failed
    · rw [readHuffmanStr, undefined] at failed
      exact thrown (Except.error.inj failed).symm
  · rintro ⟨data, encodes⟩
    refine ⟨fun other read => ?_, fun none => absurd ⟨data, encodes⟩ none⟩
    have encoded := encodes
    obtain ⟨pad, few, bits⟩ := encoded
    have length := congrArg List.length bits
    rw [Bits.length_ofBytes, Span.length_bytes, List.length_append, Huffman.length_codes] at length
    have some := (Huffman.estimateLen_bounds data).1
    have ahead : (Bits.ofBytes src.bytes).drop 0 = _ := bits
    rw [readHuffmanStr, readHuffmanLoop_spec data [] ahead few (Nat.zero_le _) (by omega)] at read
    split at read
    · cases read
      exact ⟨encodes, encodes.reproduced⟩
    · cases read

/-- Four bytes of ones are a whole end-of-string code, and are read as the empty string. -/
theorem accepts_eos :
    readHuffmanStr (Span.ofBytes (fun _ => 0) [0xff, 0xff, 0xff, 0xff]) = .ok [] ∧
      ¬ AcceptsEncodings (Span.ofBytes (fun _ => 0) [0xff, 0xff, 0xff, 0xff]) := by
  have read : readHuffmanStr (Span.ofBytes (fun _ => 0) [0xff, 0xff, 0xff, 0xff]) = .ok [] := by
    decide +kernel
  refine ⟨read, fun accepts => ?_⟩
  have reproduced := (accepts.1 [] read).2
  exact absurd reproduced (by decide)

end H2pp.Hpack.StringLiteral

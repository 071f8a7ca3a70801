import H2pp.Hpack.CheckedDecoder
import H2pp.Hpack.HuffmanStrings
import H2pp.Hpack.IntegerFormat
import H2pp.Hpack.TableBound

/-! # Safety of the decoder

The peer chooses every byte of a header block. Two shifts of the decoder are undefined for
some of them: that of the eleventh group of an integer, and that of a Huffman code which
covers five bytes. Every other block ends with fields or with an exception.
-/

namespace H2pp.Hpack

open Utils

/-! ## Integers -/

namespace Integer

/-- An integer of more than ten groups: nine that leave the sum within the limit, a tenth
whose only bit that is kept is zero, and more bytes. -/
def Overrun (bits : Nat) (src : Bytes) : Prop :=
  ∃ front groups tenth more, src = front :: (groups ++ tenth :: more) ∧ groups.length = 9 ∧
    more ≠ [] ∧ front.toNat % 2 ^ (8 - bits) = 2 ^ (8 - bits) - 1 ∧
    (∀ b ∈ groups, 128 ≤ b.toNat) ∧ 128 ≤ tenth.toNat ∧ tenth.toNat % 2 = 0 ∧
    2 ^ (8 - bits) - 1 + groupsValue 0 groups ≤ maxHpackInt

/-- The tenth group, which is shifted by 63. -/
theorem decodeGroups_tenth {value used : Nat} {b : UInt8} {src : Bytes}
    (small : value ≤ maxHpackInt) :
    decodeGroups value 63 used (b :: src) = .error .undefinedBehaviour ↔
      src ≠ [] ∧ 128 ≤ b.toNat ∧ b.toNat % 2 = 0 := by
  have limit : maxHpackInt = 16777200 := rfl
  by_cases even : b.toNat % 2 = 0
  · rw [decodeGroups_lost small (by decide) (by omega)]
    by_cases more : 128 ≤ b.toNat
    · rw [if_pos more]
      cases src with
      | nil => simp [decodeGroups]
      | cons next src => simp [decodeGroups, more, even]
    · simp [more]
  · rw [decodeGroups_kept small (by decide) (by omega), if_pos (by omega)]
    simp [even]

/-- The loop reaches an undefined shift exactly when `count` groups and the tenth one are
continued. -/
theorem decodeGroups_undefined_iff {count value m used : Nat} {src : Bytes}
    (shift : m + 7 * count = 63) (small : value ≤ maxHpackInt) :
    decodeGroups value m used src = .error .undefinedBehaviour ↔
      ∃ groups tenth more, src = groups ++ tenth :: more ∧ groups.length = count ∧ more ≠ [] ∧
        (∀ b ∈ groups, 128 ≤ b.toNat) ∧ 128 ≤ tenth.toNat ∧ tenth.toNat % 2 = 0 ∧
        value + groupsValue m groups ≤ maxHpackInt := by
  induction count generalizing value m used src with
  | zero =>
      obtain rfl : m = 63 := by omega
      cases src with
      | nil => simp [decodeGroups]
      | cons b src =>
          rw [decodeGroups_tenth small]
          constructor
          · rintro ⟨more, continued, even⟩
            exact ⟨[], b, src, rfl, rfl, more, List.forall_mem_nil _, continued, even, small⟩
          · rintro ⟨groups, tenth, more, content, length, some, -, continued, even, -⟩
            rw [List.length_eq_zero_iff.mp length, List.nil_append, List.cons.injEq] at content
            obtain ⟨rfl, rfl⟩ := content
            exact ⟨some, continued, even⟩
  | succ count ih =>
      cases src with
      | nil =>
          simp only [decodeGroups, Except.error.injEq, reduceCtorEq, false_iff]
          rintro ⟨groups, tenth, more, content, -⟩
          exact absurd content.symm (by simp)
      | cons b src =>
          have width : b.toNat % 128 * 2 ^ m ≤ 127 * 2 ^ 56 :=
            Nat.mul_le_mul (by omega) (Nat.pow_le_pow_right (by decide) (by omega))
          have positive := Nat.two_pow_pos m
          have kept : ¬ (b.toNat % 128 ≠ 0 ∧ b.toNat % 128 * 2 ^ m % 2 ^ 64 = 0) := by
            rintro ⟨some, lost⟩
            have counts := Nat.mul_pos (Nat.pos_of_ne_zero some) positive
            omega
          have peel (groups : Bytes) (tenth : UInt8) (more : Bytes)
              (length : groups.length = count + 1) (content : b :: src = groups ++ tenth :: more) :
              ∃ later, groups = b :: later ∧ src = later ++ tenth :: more ∧
                later.length = count := by
            cases groups with
            | nil => cases length
            | cons first later =>
                rw [List.cons_append, List.cons.injEq] at content
                exact ⟨later, by rw [content.1], content.2, Nat.succ.inj length⟩
          rw [decodeGroups_kept small (by omega) kept]
          by_cases large : maxHpackInt < value + b.toNat % 128 * 2 ^ m
          · rw [if_pos large]
            refine iff_of_false (Outcome.error_ne_error (by decide)) ?_
            rintro ⟨groups, tenth, more, content, length, -, -, -, -, bound⟩
            obtain ⟨later, rfl, -, -⟩ := peel groups tenth more length content
            rw [groupsValue] at bound
            omega
          · rw [if_neg large]
            by_cases continued : 128 ≤ b.toNat
            · rw [if_pos continued, ih (by omega) (Nat.not_lt.mp large)]
              constructor
              · rintro ⟨later, tenth, more, rfl, rfl, some, all, rest⟩
                refine ⟨b :: later, tenth, more, rfl, rfl, some, ?_, rest.1, rest.2.1, ?_⟩
                · exact List.forall_mem_cons.mpr ⟨continued, all⟩
                · rw [groupsValue, ← Nat.add_assoc]
                  exact rest.2.2
              · rintro ⟨groups, tenth, more, content, length, some, all, last, even, bound⟩
                obtain ⟨later, rfl, rest, count⟩ := peel groups tenth more length content
                rw [groupsValue, ← Nat.add_assoc] at bound
                exact ⟨later, tenth, more, rest, count, some, (List.forall_mem_cons.mp all).2, last,
                  even, bound⟩
            · rw [if_neg continued]
              refine iff_of_false (Outcome.ok_ne_error _ _) ?_
              rintro ⟨groups, tenth, more, content, length, -, all, -⟩
              obtain ⟨later, rfl, -, -⟩ := peel groups tenth more length content
              exact continued (all b List.mem_cons_self)

/-- `integer::decode` is undefined exactly for integers of more than ten groups. -/
theorem decode_undefined_iff {bits : Nat} (lower : 1 ≤ bits) (upper : bits ≤ 4) (src : Bytes) :
    decode bits src = .error .undefinedBehaviour ↔ Overrun bits src := by
  cases src with
  | nil =>
      refine iff_of_false (Outcome.error_ne_error (by decide)) ?_
      rintro ⟨front, groups, tenth, more, content, -⟩
      cases content
  | cons front src =>
      have positive := Nat.two_pow_pos (8 - bits)
      have below := Nat.mod_lt front.toNat positive
      rw [decode_eq lower upper]
      by_cases full : front.toNat % 2 ^ (8 - bits) = 2 ^ (8 - bits) - 1
      · have width : 2 ^ (8 - bits) ≤ 2 ^ 8 := Nat.pow_le_pow_right (by decide) (by omega)
        have small : 2 ^ (8 - bits) - 1 ≤ maxHpackInt :=
          Nat.le_trans (Nat.sub_le _ _) (Nat.le_trans width (by decide))
        rw [full, if_neg (Nat.lt_irrefl _),
          decodeGroups_undefined_iff (show 0 + 7 * 9 = 63 from rfl) small]
        constructor
        · rintro ⟨groups, tenth, more, rfl, length, some, rest⟩
          exact ⟨front, groups, tenth, more, rfl, length, some, full, rest⟩
        · rintro ⟨first, groups, tenth, more, content, length, some, -, rest⟩
          exact ⟨groups, tenth, more, (List.cons.inj content).2, length, some, rest⟩
      · rw [if_pos (by omega)]
        refine iff_of_false (Outcome.ok_ne_error _ _) ?_
        rintro ⟨first, groups, tenth, more, content, -, -, isFull, -⟩
        rw [(List.cons.inj content).1] at full
        exact full isFull

end Integer

/-! ## Huffman codes -/

namespace StringLiteral

variable {src : Span} {pos value other : Nat}

/-- From bit `pos` on, the string and the memory behind it hold the codes of some bytes,
none of which covers five bytes, and then a code that does. It starts before the end of
the string, and not at the padding. -/
def Derails (src : Span) (pos : Nat) : Prop :=
  ∃ (data : Bytes) (value : Nat), value < 257 ∧ Readable pos data ∧
    pos + (Huffman.codes data).length < src.size * 8 ∧
    ¬ isPadding src (pos + (Huffman.codes data).length) ∧
    32 ≤ (pos + (Huffman.codes data).length) % 8 + (Huffman.encode value).bitLength ∧
    src.slice pos ((Huffman.codes data).length + (Huffman.encode value).bitLength) =
      Huffman.codes data ++ (Huffman.encode value).bits

/-- Only one code starts at a position. -/
theorem code_unique (bound : value < 257) (otherBound : other < 257)
    (ahead : src.slice pos (Huffman.encode value).bitLength = (Huffman.encode value).bits)
    (otherAhead : src.slice pos (Huffman.encode other).bitLength = (Huffman.encode other).bits) :
    value = other := by
  have walk := Huffman.walk_of_mem _ (Huffman.encode_mem_zipIdx bound)
  have otherWalk := Huffman.walk_of_mem _ (Huffman.encode_mem_zipIdx otherBound)
  rcases Nat.le_total (Huffman.encode value).bitLength (Huffman.encode other).bitLength with
    shorter | longer
  · have starts := List.take_prefix (Huffman.encode value).bitLength (Huffman.encode other).bits
    rw [← otherAhead, Span.take_slice src pos shorter, ahead, otherAhead] at starts
    exact (PrefixCode.eq_of_isPrefix walk otherWalk starts).2
  · have starts := List.take_prefix (Huffman.encode other).bitLength (Huffman.encode value).bits
    rw [← ahead, Span.take_slice src pos longer, otherAhead, ahead] at starts
    exact (PrefixCode.eq_of_isPrefix otherWalk walk starts).2.symm

/-- The first code of a string that derails is in front of `pos`. -/
theorem Derails.cases (derails : Derails src pos) :
    (∃ value < 257, src.slice pos (Huffman.encode value).bitLength = (Huffman.encode value).bits ∧
        ¬ isPadding src pos ∧ 32 ≤ pos % 8 + (Huffman.encode value).bitLength) ∨
      ∃ byte : UInt8, src.slice pos (Huffman.encode byte.toNat).bitLength =
          (Huffman.encode byte.toNat).bits ∧
        pos % 8 + (Huffman.encode byte.toNat).bitLength < 32 ∧
        pos + (Huffman.encode byte.toNat).bitLength < src.size * 8 ∧
        Derails src (pos + (Huffman.encode byte.toNat).bitLength) := by
  obtain ⟨data, value, bound, readable, inside, unpadded, wide, ahead⟩ := derails
  cases data with
  | nil =>
      rw [Huffman.codes_nil, List.length_nil, Nat.add_zero] at unpadded wide
      rw [Huffman.codes_nil, List.length_nil, Nat.zero_add, List.nil_append] at ahead
      exact .inl ⟨value, bound, ahead, unpadded, wide⟩
  | cons byte data =>
      obtain ⟨fits, readable⟩ := readable
      rw [Huffman.codes_cons, List.length_append, Huffman.HuffmanCode.length_bits,
        ← Nat.add_assoc] at inside unpadded wide
      rw [Huffman.codes_cons, List.length_append, Huffman.HuffmanCode.length_bits, Nat.add_assoc,
        Span.slice_append, List.append_assoc] at ahead
      obtain ⟨first, rest⟩ := List.append_inj ahead
        (by rw [Span.length_slice, Huffman.HuffmanCode.length_bits])
      exact .inr ⟨byte, first, fits, by omega, data, value, bound, readable, inside, unpadded, wide,
        rest⟩

/-- A code that covers five bytes derails. -/
theorem Derails.here (bound : value < 257) (more : pos < src.size * 8)
    (unpadded : ¬ isPadding src pos)
    (ahead : src.slice pos (Huffman.encode value).bitLength = (Huffman.encode value).bits)
    (wide : 32 ≤ pos % 8 + (Huffman.encode value).bitLength) : Derails src pos := by
  refine ⟨[], value, bound, trivial, ?_⟩
  rw [Huffman.codes_nil, List.length_nil, Nat.add_zero, Nat.zero_add, List.nil_append]
  exact ⟨more, unpadded, wide, ahead⟩

/-- A code in front of one that derails. -/
theorem Derails.after {byte : UInt8}
    (derails : Derails src (pos + (Huffman.encode byte.toNat).bitLength))
    (ahead : src.slice pos (Huffman.encode byte.toNat).bitLength =
      (Huffman.encode byte.toNat).bits)
    (fits : pos % 8 + (Huffman.encode byte.toNat).bitLength < 32) : Derails src pos := by
  obtain ⟨data, value, bound, readable, inside, unpadded, wide, rest⟩ := derails
  refine ⟨byte :: data, value, bound, ⟨fits, readable⟩, ?_⟩
  rw [Huffman.codes_cons, List.length_append, Huffman.HuffmanCode.length_bits, ← Nat.add_assoc,
    Nat.add_assoc _ (Huffman.codes data).length, Span.slice_append, ahead, rest, List.append_assoc]
  exact ⟨inside, unpadded, wide, rfl⟩

/-- Nothing derails at the padding. -/
theorem Derails.unpadded (derails : Derails src pos) (inside : pos ≤ 8 * src.size) :
    ¬ isPadding src pos := by
  rcases derails.cases with ⟨value, -, -, unpadded, -⟩ | ⟨byte, ahead, -, within, -⟩
  · exact unpadded
  · intro padding
    obtain ⟨few, ones⟩ := (isPadding_iff src pos inside).mp padding
    rw [Span.slice_eq src pos _ (by omega), ones, List.take_replicate] at ahead
    refine code_ne_padding (Nat.lt_succ_of_lt byte.toNat_lt) [] _ ?_
      ((List.append_nil _).trans ahead.symm)
    omega

/-- The reader reaches an undefined shift exactly if the string derails. -/
theorem readHuffmanLoop_undefined_iff {fuel : Nat} (result : Bytes) (inside : pos ≤ src.size * 8)
    (enough : src.size * 8 ≤ pos + fuel) :
    readHuffmanLoop fuel src pos result = .error .undefinedBehaviour ↔ Derails src pos := by
  induction fuel generalizing pos result with
  | zero =>
      refine iff_of_false (Outcome.ok_ne_error _ _) ?_
      rintro ⟨data, -, -, -, before, -⟩
      omega
  | succ fuel ih =>
      by_cases ended : pos = src.size * 8
      · rw [readHuffmanLoop, if_pos ended]
        refine iff_of_false (Outcome.ok_ne_error _ _) ?_
        rintro ⟨data, -, -, -, before, -⟩
        omega
      by_cases padding : isPadding src pos
      · rw [readHuffmanLoop, if_neg ended, if_pos padding]
        exact iff_of_false (Outcome.ok_ne_error _ _) fun derails =>
          derails.unpadded (by omega) padding
      obtain ⟨value, bound, ahead⟩ := exists_code src pos
      obtain ⟨lower, -⟩ := Huffman.bounds_of_mem _ (Huffman.encode_mem bound)
      rw [readHuffmanLoop_code fuel result bound ended padding ahead]
      by_cases fits : pos % 8 + (Huffman.encode value).bitLength < 32
      · rw [if_pos fits]
        -- what derails starts with this code, which must then be that of a byte
        have next (derails : Derails src pos) : value ≠ Huffman.eos ∧
            pos + (Huffman.encode value).bitLength < src.size * 8 ∧
            Derails src (pos + (Huffman.encode value).bitLength) := by
          rcases derails.cases with ⟨other, otherBound, otherAhead, -, wide⟩ |
            ⟨byte, byteAhead, -, within, later⟩
          · rw [code_unique bound otherBound ahead otherAhead] at fits
            omega
          · obtain rfl := code_unique bound (Nat.lt_succ_of_lt byte.toNat_lt) ahead byteAhead
            exact ⟨Nat.ne_of_lt byte.toNat_lt, within, later⟩
        by_cases isEos : value = Huffman.eos
        · rw [if_pos isEos]
          exact iff_of_false (Outcome.ok_ne_error _ _) fun derails => (next derails).1 isEos
        · rw [if_neg isEos]
          refine (ih _ (Nat.min_le_right _ _) (by omega)).trans ?_
          constructor
          · intro derails
            have before : pos + (Huffman.encode value).bitLength < src.size * 8 := by
              obtain ⟨data, -, -, -, before, -⟩ := derails
              omega
            rw [Nat.min_eq_left (Nat.le_of_lt before)] at derails
            rw [← toNat_ofNat_symbol bound isEos] at derails ahead fits
            exact derails.after ahead fits
          · intro derails
            obtain ⟨-, within, later⟩ := next derails
            rw [Nat.min_eq_left (Nat.le_of_lt within)]
            exact later
      · rw [if_neg fits]
        exact iff_of_true rfl (.here bound (by omega) padding ahead (Nat.not_lt.mp fits))

private theorem readHuffmanStr_undefined_iff (src : Span) :
    readHuffmanStr src = .error .undefinedBehaviour ↔ Derails src 0 :=
  readHuffmanLoop_undefined_iff [] (Nat.zero_le _) (Nat.le_add_left _ _)

/-- A string literal whose length is an integer of more than ten groups, or whose codes,
all of them there, derail. -/
def LiteralDerails (src : Span) : Prop :=
  Integer.Overrun 1 src.bytes ∨
    ∃ length, Integer.decode 1 src.bytes = .ok length ∧
      src.mem 0 &&& StringFlag.encoded.value ≠ 0 ∧
      length.usedBytes + length.value ≤ src.size ∧
      Derails ((src.subspan length.usedBytes).first length.value) 0

private theorem decode_undefined_iff (src : Span) :
    decode src = .error .undefinedBehaviour ↔ LiteralDerails src := by
  rw [LiteralDerails, ← Integer.decode_undefined_iff (by decide) (by decide), decode]
  by_cases empty : src.size = 0
  · have none : src.bytes = [] := List.length_eq_zero_iff.mp (by rw [Span.length_bytes, empty])
    rw [if_pos empty, none]
    simp [Integer.decode]
  · rw [if_neg empty, Outcome.bind_eq_error]
    refine or_congr_right (exists_congr fun length => and_congr_right fun decoded => ?_)
    obtain ⟨-, inside, -⟩ := Integer.decode_bounds decoded
    rw [Span.length_bytes] at inside
    have size : (src.subspan length.usedBytes).size = src.size - length.usedBytes := rfl
    by_cases short : (src.subspan length.usedBytes).size < length.value
    · rw [if_pos short]
      refine iff_of_false (Outcome.error_ne_error (by decide)) ?_
      rintro ⟨-, whole, -⟩
      omega
    · rw [if_neg short, and_iff_right (show length.usedBytes + length.value ≤ src.size by omega)]
      by_cases coded : src.mem 0 &&& StringFlag.encoded.value ≠ 0
      · rw [if_neg (not_not.mpr coded), Outcome.bind_eq_error, readHuffmanStr_undefined_iff]
        simp [coded]
      · rw [if_pos coded]
        exact iff_of_false (Outcome.ok_ne_error _ _) fun derails => coded derails.1

/-- A literal that does not derail is read if all of it is there. -/
theorem decode_of_stringEnd {src : Span} {last : Nat} (whole : stringEnd src.bytes 0 = some last)
    (defined : ¬ LiteralDerails src) :
    ∃ result, decode src = .ok result ∧ result.usedBytes = last := by
  rw [← decode_undefined_iff] at defined
  unfold stringEnd at whole
  rw [List.drop_zero] at whole
  cases decoded : Integer.decode 1 src.bytes with
  | error failure =>
      rw [decoded] at whole
      cases whole
  | ok length =>
      obtain ⟨lower, inside, -⟩ := Integer.decode_bounds decoded
      rw [decoded, Span.length_bytes] at whole
      simp only [Option.ite_none_right_eq_some, Option.some.injEq, Nat.zero_add] at whole
      obtain ⟨within, rfl⟩ := whole
      rw [Span.length_bytes] at inside
      have size : (src.subspan length.usedBytes).size = src.size - length.usedBytes := rfl
      rw [decode, if_neg (by omega), decoded, Outcome.ok_bind] at defined ⊢
      simp only [size, show ¬ src.size - length.usedBytes < length.value by omega,
        ↓reduceIte] at defined ⊢
      by_cases coded : src.mem 0 &&& StringFlag.encoded.value ≠ 0
      · rw [if_neg (not_not.mpr coded)] at defined ⊢
        rcases @readHuffmanLoop_accepts ((src.subspan length.usedBytes).first length.value) 0
          (length.value * 8) [] with ⟨data, read⟩ | undefined
        · have read : readHuffmanStr ((src.subspan length.usedBytes).first length.value) =
              .ok data := read
          exact ⟨_, by rw [read, Outcome.ok_bind], rfl⟩
        · have undefined : readHuffmanStr ((src.subspan length.usedBytes).first length.value) =
              .error .undefinedBehaviour := undefined
          exact absurd (by rw [undefined, Outcome.error_bind]) defined
      · rw [if_pos coded]
        exact ⟨_, rfl, rfl⟩

end StringLiteral

/-! ## Commands -/

open StringLiteral (LiteralDerails)

private theorem HeaderField.create_defined (name value : Bytes) (type : IndexType) :
    create name value type ≠ .error .undefinedBehaviour := by
  rw [create]
  split
  · exact Outcome.ok_ne_error _ _
  · exact Outcome.error_ne_error (by decide)

/-- Where the tables have an entry. -/
theorem HpackTable.atIndex_cases (dyn : DynamicTable) {i : Nat} (some : i ≠ 0) :
    atIndex dyn i ≠ .error .undefinedBehaviour ∧
      ((∃ entry, atIndex dyn i = .ok entry) ↔ i ≤ StaticTable.size + dyn.table.length) := by
  rw [atIndex, if_neg some]
  by_cases static : i ≤ StaticTable.size
  · rw [if_pos static]
    exact ⟨Outcome.ok_ne_error _ _, iff_of_true ⟨_, rfl⟩ (by omega)⟩
  · rw [if_neg static, DynamicTable.atIndex]
    by_cases inside : i - StaticTable.size - 1 < dyn.table.length
    · rw [List.getElem?_eq_getElem inside]
      exact ⟨Outcome.ok_ne_error _ _, iff_of_true ⟨_, rfl⟩ (by omega)⟩
    · rw [List.getElem?_eq_none (Nat.not_lt.mp inside)]
      refine ⟨Outcome.error_ne_error (by decide), iff_of_false ?_ (by omega)⟩
      rintro ⟨entry, found⟩
      cases found

namespace Decoder

/-- What follows the index of a literal derails: one of its two strings, or its value if
there is an entry with its name. -/
def StringsDerail (table : DynamicTable) (src : Span) (index : Nat) : Prop :=
  if index = 0 then
    LiteralDerails src ∨
      ∃ last, stringEnd src.bytes 0 = some last ∧ LiteralDerails (src.subspan last)
  else index ≤ StaticTable.size + table.table.length ∧ LiteralDerails src

/-- The command at the front has an integer of more than ten groups, or a string that
derails. -/
def CommandDerails (table : DynamicTable) (src : Span) : Prop :=
  Integer.Overrun (decodeCmd (src.mem 0)).bitlen src.bytes ∨
    (decodeCmd (src.mem 0)).isLiteral = true ∧
      ∃ index, Integer.decode (decodeCmd (src.mem 0)).bitlen src.bytes = .ok index ∧
        StringsDerail table (src.subspan index.usedBytes) index.value

variable {table : DynamicTable} {src : Span}

/-- The strings of a literal, whatever is made of them. -/
theorem literalName_undefined_iff {Final : Type} (table : DynamicTable) (src : Span) (index : Nat)
    {make : Bytes → Span → StringLiteral.DecodedResult → Except Failure Final}
    (defined : ∀ name rest value, make name rest value ≠ .error .undefinedBehaviour) :
    (literalName table src index >>= fun named =>
        StringLiteral.decode named.2 >>= make named.1 named.2) = .error .undefinedBehaviour ↔
      StringsDerail table src index := by
  have value (name : Bytes) (rest : Span) :
      (StringLiteral.decode rest >>= make name rest) = .error .undefinedBehaviour ↔
        LiteralDerails rest := by
    rw [Outcome.bind_eq_error, StringLiteral.decode_undefined_iff]
    simp [defined]
  rw [Outcome.bind_eq_error, StringsDerail, literalName]
  simp only [value]
  by_cases zero : index = 0
  · rw [if_pos zero, if_pos zero, Outcome.bind_eq_error, StringLiteral.decode_undefined_iff]
    simp only [reduceCtorEq, and_false, exists_false, or_false]
    by_cases derails : LiteralDerails src
    · simp only [derails, true_or]
    · simp only [derails, false_or]
      constructor
      · rintro ⟨⟨name, rest⟩, named, later⟩
        obtain ⟨first, read, same⟩ := Outcome.bind_eq_ok.mp named
        cases same
        have whole := @Instruction.stringEnd_of_decode src 0 first
          (by rw [Span.subspan_zero]; exact read)
        rw [Nat.zero_add] at whole
        exact ⟨_, whole, later⟩
      · rintro ⟨last, whole, later⟩
        obtain ⟨first, read, rfl⟩ := StringLiteral.decode_of_stringEnd whole derails
        exact ⟨(first.value, src.subspan first.usedBytes), by rw [read, Outcome.ok_bind], later⟩
  · obtain ⟨inRange, found⟩ := HpackTable.atIndex_cases table zero
    rw [if_neg zero, if_neg zero, Outcome.bind_eq_error, ← found]
    simp only [inRange, reduceCtorEq, and_false, exists_false, or_false, false_or]
    constructor
    · rintro ⟨⟨name, rest⟩, named, later⟩
      obtain ⟨entry, read, same⟩ := Outcome.bind_eq_ok.mp named
      cases same
      exact ⟨⟨entry, read⟩, later⟩
    · rintro ⟨⟨entry, read⟩, later⟩
      exact ⟨(entry.1, src), by rw [read, Outcome.ok_bind], later⟩

private theorem bitlen_bounds (cmd : Command) : 1 ≤ cmd.bitlen ∧ cmd.bitlen ≤ 4 := by
  cases cmd <;> decide

/-- A literal is undefined exactly if its index or its strings derail. -/
theorem literalImpl_undefined_iff (cmd : Command) (type : IndexType) :
    literalWithoutIndexImpl table src type cmd.bitlen = .error .undefinedBehaviour ↔
      Integer.Overrun cmd.bitlen src.bytes ∨
        ∃ index, Integer.decode cmd.bitlen src.bytes = .ok index ∧
          StringsDerail table (src.subspan index.usedBytes) index.value := by
  obtain ⟨lower, upper⟩ := bitlen_bounds cmd
  rw [literalWithoutIndexImpl, Outcome.bind_eq_error, Integer.decode_undefined_iff lower upper]
  refine or_congr_right (exists_congr fun index => and_congr_right fun _ => ?_)
  exact @literalName_undefined_iff _ table (src.subspan index.usedBytes) index.value
    (fun name rest value => HeaderField.create name value.value type >>= fun field =>
      .ok (rest.subspan value.usedBytes, field))
    fun _ _ _ => Outcome.bind_ok_ne_error.mpr (HeaderField.create_defined _ _ _)

/-- **Commands.** A command is undefined exactly if it derails. -/
theorem runCommand_undefined_iff (table : DynamicTable) (src : Span) :
    runCommand table src = .error .undefinedBehaviour ↔ CommandDerails table src := by
  rw [CommandDerails]
  cases cmd : decodeCmd (src.mem 0) with
  | index =>
      obtain ⟨lower, upper⟩ := bitlen_bounds .index
      rw [runCommand, cmd, ← Integer.decode_undefined_iff lower upper]
      simp only [Command.isLiteral, Bool.false_eq_true, false_and, or_false]
      rw [indexCmd, Outcome.bind_eq_error, or_iff_left_iff_imp]
      rintro ⟨index, -, failed⟩
      by_cases zero : index.value = 0
      · rw [if_pos zero] at failed
        cases failed
      · rw [if_neg zero] at failed
        refine absurd failed (Outcome.bind_ne_error (HpackTable.atIndex_cases table zero).1 ?_)
        exact fun entry => Outcome.bind_ok_ne_error.mpr (HeaderField.create_defined _ _ _)
  | changeTableSize =>
      obtain ⟨lower, upper⟩ := bitlen_bounds .changeTableSize
      rw [runCommand, cmd, ← Integer.decode_undefined_iff lower upper]
      simp only [Command.isLiteral, Bool.false_eq_true, false_and, or_false]
      rw [changeTableSizeCmd, Outcome.bind_eq_error]
      simp
  | literalIncrementalIndex | literalWithoutIndex | literalNeverIndex =>
      rw [Instruction.runCommand_literal_eq cmd rfl, Outcome.bind_eq_error,
        literalImpl_undefined_iff]
      simp [Command.isLiteral]

/-! ## Blocks -/

private theorem decodeLoop_defined_iff {fuel : Nat} (fields : List HeaderField) :
    (decodeLoop fuel table src fields).2 ≠ .error .undefinedBehaviour ↔
      CommandsMeet (fun table src => ¬ CommandDerails table src) fuel table src := by
  induction fuel generalizing table src fields with
  | zero => exact iff_of_true (Outcome.ok_ne_error _ _) trivial
  | succ fuel ih =>
      rw [decodeLoop, CommandsMeet, ← runCommand_undefined_iff]
      by_cases empty : src.size = 0
      · rw [if_pos empty]
        exact iff_of_true (Outcome.ok_ne_error _ _) (.inl empty)
      · rw [if_neg empty, or_iff_right empty]
        cases ran : runCommand table src with
        | error failure => simp
        | ok next => simp [ih]

/-- The decoder ends with fields or an exception, and nothing that it relies on fails:
every command uses up some input, every `subspan` and table access is in range, and the
Huffman reader moves on by five bits, or to the end, in every round. -/
def Safe (decoder : Decoder) (src : Span) : Prop :=
  (decoder.checkedDecode src).2 ≠ .error .undefinedBehaviour

instance (decoder : Decoder) (src : Span) : Decidable (Safe decoder src) :=
  inferInstanceAs (Decidable (_ ≠ _))

/-- **Safety.** Whatever its table is, the decoder is safe on exactly those blocks of
which no command, when its turn comes, derails. -/
theorem decode_safe_iff (decoder : Decoder) (src : Span) :
    Safe decoder src ↔ CommandsMeet (fun table src => ¬ CommandDerails table src) src.size
      decoder.table src := by
  rw [Safe, checkedDecode_eq, decode]
  exact decodeLoop_defined_iff []

/-- An index of eleven groups, and a Huffman string with a code of 28 bits at bit 60. -/
theorem not_safe :
    ¬ Safe create (.ofBytes (fun _ => 0) (0xff :: List.replicate 10 0x80 ++ [0])) ∧
      ¬ Safe create (.ofBytes (fun _ => 0)
        ([0x00, 0x01, 0x78, 0x8b] ++ [0, 0, 0, 0, 0, 0, 0, 0x0f, 0xff, 0xff, 0xe2])) := by
  decide +kernel

end Decoder

end H2pp.Hpack

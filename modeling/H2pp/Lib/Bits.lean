import Mathlib.Data.List.Basic
import Mathlib.Data.Nat.Bitwise

/-! # Big-endian bit strings

A number is read as the string of its lowest bits, most significant bit first,
and a byte sequence as the concatenation of its bytes' strings. The lemmas
describe how the shifts and masks of a bit accumulator act on these strings, so
that a proof about packed codes never has to look at single bits again.
-/

namespace H2pp.Bits

/-- The lowest `count` bits of `value`, most significant bit first. -/
def ofNat : Nat → Nat → List Bool
  | 0, _ => []
  | count + 1, value => value.testBit count :: ofNat count value

/-- The number of bits is as asked for. -/
@[simp] theorem length_ofNat (count value : Nat) : (ofNat count value).length = count := by
  induction count with
  | zero => rfl
  | succ count ih => simp only [ofNat, List.length_cons, ih]

/-- Only the lowest `count` bits matter. -/
theorem ofNat_congr {count first second : Nat}
    (same : ∀ index < count, first.testBit index = second.testBit index) :
    ofNat count first = ofNat count second := by
  induction count with
  | zero => rfl
  | succ count ih =>
      rw [ofNat, ofNat, same count (Nat.lt_succ_self count),
        ih fun index below => same index (Nat.lt_succ_of_lt below)]

/-- Numbers below `2 ^ count` with equal strings are equal. -/
theorem ofNat_injective {count first second : Nat} (firstBound : first < 2 ^ count)
    (secondBound : second < 2 ^ count) (same : ofNat count first = ofNat count second) :
    first = second := by
  have agree : ∀ limit ≤ count, ofNat limit first = ofNat limit second →
      ∀ index < limit, first.testBit index = second.testBit index := by
    intro limit
    induction limit with
    | zero => intro _ _ index below; omega
    | succ limit ih =>
        intro bound equal index below
        simp only [ofNat, List.cons.injEq] at equal
        by_cases top : index = limit
        · rw [top, equal.1]
        · exact ih (by omega) equal.2 index (by omega)
  apply Nat.eq_of_testBit_eq
  intro index
  by_cases below : index < count
  · exact agree count le_rfl same index below
  · have power : 2 ^ count ≤ 2 ^ index := Nat.pow_le_pow_right (by omega) (by omega)
    rw [Nat.testBit_lt_two_pow (by omega), Nat.testBit_lt_two_pow (by omega)]

/-- A string splits into the string of the high part and that of the low part. -/
theorem ofNat_add (high low value : Nat) :
    ofNat (high + low) value = ofNat high (value >>> low) ++ ofNat low value := by
  induction high with
  | zero => simp only [Nat.zero_add, ofNat, List.nil_append]
  | succ high ih =>
      rw [show high + 1 + low = (high + low) + 1 by omega, ofNat, ih, ofNat, List.cons_append,
        Nat.testBit_shiftRight, Nat.add_comm low high]

/-- Higher bits do not matter. -/
theorem ofNat_mod (count width value : Nat) (bound : count ≤ width) :
    ofNat count (value % 2 ^ width) = ofNat count value := by
  apply ofNat_congr
  intro index below
  rw [Nat.testBit_mod_two_pow]
  simp only [show index < width by omega, decide_true, Bool.true_and]

/-- Zero has no bit set. -/
@[simp] theorem ofNat_zero (count : Nat) : ofNat count 0 = List.replicate count false := by
  induction count with
  | zero => rfl
  | succ count ih => rw [ofNat, ih, Nat.zero_testBit, List.replicate_succ]

/-- A mask of ones reads as ones. -/
theorem ofNat_mask (count : Nat) : ofNat count (2 ^ count - 1) = List.replicate count true := by
  have ones : ∀ limit ≤ count, ofNat limit (2 ^ count - 1) = List.replicate limit true := by
    intro limit
    induction limit with
    | zero => intro _; rfl
    | succ limit ih =>
        intro bound
        rw [ofNat, ih (by omega), Nat.testBit_two_pow_sub_one, List.replicate_succ]
        simp only [show limit < count by omega, decide_true]
  exact ones count le_rfl

/-- Shifting a number up and filling the freed low positions with `low`
appends the string of `low`. -/
theorem ofNat_shiftLeft_or (high count value low : Nat) (bound : low < 2 ^ count) :
    ofNat (high + count) (value <<< count ||| low) = ofNat high value ++ ofNat count low := by
  rw [ofNat_add]
  congr 1
  · apply ofNat_congr
    intro index _
    have above : low.testBit (count + index) = false :=
      Nat.testBit_lt_two_pow
        (lt_of_lt_of_le bound (Nat.pow_le_pow_right (by omega) (by omega)))
    rw [Nat.testBit_shiftRight, Nat.testBit_or, Nat.testBit_shiftLeft, above]
    simp only [ge_iff_le, Nat.le_add_right, decide_true, Nat.add_sub_cancel_left, Bool.true_and,
      Bool.or_false]
  · apply ofNat_congr
    intro index below
    rw [Nat.testBit_or, Nat.testBit_shiftLeft]
    simp only [ge_iff_le, show ¬ count ≤ index by omega, decide_false, Bool.false_and,
      Bool.false_or]

/-- A position of a string is a bit counted from the other end. -/
theorem ofNat_getElem? (count value index : Nat) (inside : index < count) :
    (ofNat count value)[index]? = some (value.testBit (count - 1 - index)) := by
  induction count generalizing index with
  | zero => omega
  | succ count ih =>
      cases index with
      | zero => rw [ofNat, List.getElem?_cons_zero, Nat.sub_zero, Nat.add_sub_cancel]
      | succ index =>
          rw [ofNat, List.getElem?_cons_succ, ih index (by omega),
            show count + 1 - 1 - (index + 1) = count - 1 - index by omega]

/-- The string of a byte. -/
def ofByte (byte : UInt8) : List Bool := ofNat 8 byte.toNat

/-- The string of a byte sequence. -/
def ofBytes (bytes : List UInt8) : List Bool := bytes.flatMap ofByte

/-- A byte has eight bits. -/
@[simp] theorem length_ofByte (byte : UInt8) : (ofByte byte).length = 8 := length_ofNat ..

/-- No bytes have no bits. -/
@[simp] theorem ofBytes_nil : ofBytes [] = [] := rfl

/-- The bits of the first byte come first. -/
@[simp] theorem ofBytes_cons (byte : UInt8) (bytes : List UInt8) :
    ofBytes (byte :: bytes) = ofByte byte ++ ofBytes bytes := rfl

/-- The bits of bytes that follow each other. -/
@[simp] theorem ofBytes_append (first second : List UInt8) :
    ofBytes (first ++ second) = ofBytes first ++ ofBytes second :=
  List.flatMap_append

/-- Eight bits for each byte. -/
@[simp] theorem length_ofBytes (bytes : List UInt8) :
    (ofBytes bytes).length = 8 * bytes.length := by
  induction bytes with
  | nil => rfl
  | cons byte bytes ih =>
      rw [ofBytes_cons, List.length_append, ih, length_ofByte, List.length_cons]
      omega

/-- Taking whole bytes takes eight bits for each of them. -/
theorem ofBytes_take (bytes : List UInt8) (count : Nat) :
    ofBytes (bytes.take count) = (ofBytes bytes).take (8 * count) := by
  induction bytes generalizing count with
  | nil => simp only [List.take_nil, ofBytes_nil]
  | cons byte bytes ih =>
      cases count with
      | zero => simp only [List.take_zero, ofBytes_nil, Nat.mul_zero]
      | succ count =>
          have whole : (ofByte byte).take (8 * (count + 1)) = ofByte byte :=
            List.take_of_length_le (by rw [length_ofByte]; omega)
          rw [List.take_succ_cons, ofBytes_cons, ofBytes_cons, ih, List.take_append,
            length_ofByte, show 8 * (count + 1) - 8 = 8 * count by omega, whole]

/-- A byte is determined by its string. -/
theorem ofByte_injective {first second : UInt8} (same : ofByte first = ofByte second) :
    first = second :=
  UInt8.toNat_inj.mp (ofNat_injective first.toNat_lt second.toNat_lt same)

/-- A byte sequence whose string starts with that of another one starts with
that one's bytes. -/
theorem exists_append_of_ofBytes {first whole : List UInt8} {rest : List Bool}
    (same : ofBytes whole = ofBytes first ++ rest) :
    ∃ second, whole = first ++ second ∧ ofBytes second = rest := by
  induction first generalizing whole with
  | nil => exact ⟨whole, rfl, same⟩
  | cons byte first ih =>
      cases whole with
      | nil =>
          have lengths := congrArg List.length same
          rw [List.length_append, length_ofBytes, length_ofBytes, List.length_nil,
            List.length_cons] at lengths
          omega
      | cons other whole =>
          rw [ofBytes_cons, ofBytes_cons, List.append_assoc] at same
          obtain ⟨front, back⟩ := List.append_inj same (by rw [length_ofByte, length_ofByte])
          obtain ⟨second, split, bits⟩ := ih back
          exact ⟨second, by rw [ofByte_injective front, split, List.cons_append], bits⟩

/-- Bytes are determined by their bits. -/
theorem ofBytes_injective {first second : List UInt8} (same : ofBytes first = ofBytes second) :
    first = second := by
  obtain ⟨rest, rfl, empty⟩ :=
    exists_append_of_ofBytes
      (show ofBytes second = ofBytes first ++ [] by rw [same, List.append_nil])
  have none : rest = [] := by
    rw [← List.length_eq_zero_iff]
    have length := congrArg List.length empty
    rw [length_ofBytes, List.length_nil] at length
    omega
  rw [none, List.append_nil]

/-- There is one way to fill up a string to whole bytes with fewer than eight ones. -/
theorem padded_unique {first second : List UInt8} {code : List Bool} {pad other : Nat}
    (few : pad < 8) (fewOther : other < 8)
    (firstBits : ofBytes first = code ++ List.replicate pad true)
    (secondBits : ofBytes second = code ++ List.replicate other true) : first = second := by
  have firstLength := congrArg List.length firstBits
  have secondLength := congrArg List.length secondBits
  rw [length_ofBytes, List.length_append, List.length_replicate] at firstLength secondLength
  have equal : pad = other := by omega
  rw [← equal, ← firstBits] at secondBits
  exact (ofBytes_injective secondBits).symm

/-- The bit at a position of a byte sequence is a bit of the byte it falls in. -/
theorem ofBytes_getElem? (bytes : List UInt8) (index : Nat) :
    (ofBytes bytes)[index]? = bytes[index / 8]?.map fun byte =>
      byte.toNat.testBit (7 - index % 8) := by
  induction bytes generalizing index with
  | nil => simp only [ofBytes_nil, List.getElem?_nil, Option.map_none]
  | cons byte bytes ih =>
      rw [ofBytes_cons]
      by_cases inside : index < 8
      · rw [List.getElem?_append_left (by rw [length_ofByte]; exact inside),
          show index / 8 = 0 by omega, show index % 8 = index by omega, List.getElem?_cons_zero,
          Option.map_some]
        have cases : index = 0 ∨ index = 1 ∨ index = 2 ∨ index = 3 ∨ index = 4 ∨ index = 5 ∨
            index = 6 ∨ index = 7 := by omega
        rcases cases with rfl | rfl | rfl | rfl | rfl | rfl | rfl | rfl <;> rfl
      · rw [List.getElem?_append_right (by rw [length_ofByte]; omega), length_ofByte, ih,
          show index / 8 = (index - 8) / 8 + 1 by omega, List.getElem?_cons_succ,
          show (index - 8) % 8 = index % 8 by omega]

/-- The eight bytes of a 64-bit word, most significant first. -/
def wordBytes (word : Nat) : List UInt8 :=
  [UInt8.ofNat (word >>> 56), UInt8.ofNat (word >>> 48), UInt8.ofNat (word >>> 40),
    UInt8.ofNat (word >>> 32), UInt8.ofNat (word >>> 24), UInt8.ofNat (word >>> 16),
    UInt8.ofNat (word >>> 8), UInt8.ofNat word]

/-- The bits of a number that is cut to a byte. -/
theorem ofByte_ofNat (value : Nat) : ofByte (UInt8.ofNat value) = ofNat 8 value := by
  unfold ofByte
  rw [UInt8.toNat_ofNat', ofNat_mod 8 8 value le_rfl]

/-- The bits of a word are those of its bytes. -/
theorem ofBytes_wordBytes (word : Nat) : ofBytes (wordBytes word) = ofNat 64 word := by
  have split (high low : Nat) (value : Nat) := ofNat_add high low value
  rw [split 8 56, split 8 48, split 8 40, split 8 32, split 8 24, split 8 16, split 8 8]
  simp only [wordBytes, ofBytes_cons, ofBytes_nil, ofByte_ofNat, List.append_nil]

/-- A byte sequence read as one big-endian number. -/
def wordOf (bytes : List UInt8) : Nat :=
  bytes.foldl (fun word byte => word <<< 8 ||| byte.toNat) 0

/-- The bits of bytes are those of the word they make up. -/
theorem ofNat_wordOf (bytes : List UInt8) :
    ofNat (8 * bytes.length) (wordOf bytes) = ofBytes bytes := by
  have fold : ∀ (rest : List UInt8) (count word : Nat),
      ofNat (count + 8 * rest.length)
          (rest.foldl (fun word byte => word <<< 8 ||| byte.toNat) word) =
        ofNat count word ++ ofBytes rest := by
    intro rest
    induction rest with
    | nil =>
        intro count word
        rw [List.length_nil, Nat.mul_zero, Nat.add_zero, List.foldl_nil, ofBytes_nil,
          List.append_nil]
    | cons byte rest ih =>
        intro count word
        rw [List.foldl_cons, List.length_cons, show count + 8 * (rest.length + 1) =
          (count + 8) + 8 * rest.length by omega, ih, ofNat_shiftLeft_or count 8 word _
          byte.toNat_lt, List.append_assoc]
        rfl
  have whole := fold bytes 0 0
  rw [Nat.zero_add] at whole
  exact whole

/-- A bit of a big-endian number is a bit of the byte it falls in. -/
theorem testBit_wordOf (bytes : List UInt8) (index : Nat) (inside : index < 8 * bytes.length) :
    some ((wordOf bytes).testBit index) = bytes[bytes.length - 1 - index / 8]?.map fun byte =>
      byte.toNat.testBit (index % 8) := by
  have position := ofNat_getElem? (8 * bytes.length) (wordOf bytes)
    (8 * bytes.length - 1 - index) (by omega)
  rw [ofNat_wordOf, ofBytes_getElem?, show 8 * bytes.length - 1 -
    (8 * bytes.length - 1 - index) = index by omega, show (8 * bytes.length - 1 - index) / 8 =
    bytes.length - 1 - index / 8 by omega, show 7 - (8 * bytes.length - 1 - index) % 8 =
    index % 8 by omega] at position
  exact position.symm

end H2pp.Bits

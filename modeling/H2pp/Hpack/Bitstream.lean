import H2pp.Hpack.Huffman
import H2pp.Utils.Buffer
import H2pp.Utils.Span

/-! # Reading bits from a span

`hpack/bitstream.cpp`. `take_bits` reads a whole 64-bit word ending at the last
byte it needs, which may begin before the span. Where the bits wanted cover five
bytes the final shift distance is negative as an unsigned number, and the shift
has no defined result.
-/

namespace H2pp.Utils.Span

/-- A bit of the memory, counted from the first bit of the span. -/
def bit (span : Span) (index : Nat) : Bool :=
  (span.mem (index / 8 : Nat)).toNat.testBit (7 - index % 8)

/-- `len` bits of the memory from bit `offset` on. -/
def slice (span : Span) (offset len : Nat) : List Bool :=
  (List.range len).map fun index => span.bit (offset + index)

/-- A slice has as many bits as were asked for. -/
@[simp] theorem length_slice (span : Span) (offset len : Nat) :
    (span.slice offset len).length = len := by
  rw [slice, List.length_map, List.length_range]

/-- The front of a slice is a shorter slice. -/
theorem take_slice (span : Span) (offset : Nat) {count len : Nat} (shorter : count ≤ len) :
    (span.slice offset len).take count = span.slice offset count := by
  rw [slice, slice, ← List.map_take, List.take_range, Nat.min_eq_left shorter]

/-- Slices that follow each other make up one slice. -/
theorem slice_append (span : Span) (offset first second : Nat) :
    span.slice offset (first + second) =
      span.slice offset first ++ span.slice (offset + first) second := by
  rw [slice, List.range_add, List.map_append, List.map_map, slice, slice]
  simp only [Function.comp_def, Nat.add_assoc]

/-- Inside the span the bits read are those of its bytes. -/
theorem slice_eq (span : Span) (offset len : Nat) (inside : offset + len ≤ 8 * span.size) :
    span.slice offset len = ((Bits.ofBytes span.bytes).drop offset).take len := by
  apply List.ext_getElem?
  intro index
  by_cases below : index < len
  · rw [List.getElem?_take_of_lt below, List.getElem?_drop, Bits.ofBytes_getElem?,
      bytes_getElem? _ _ (by omega), slice, List.getElem?_map, List.getElem?_range below]
    rfl
  · rw [List.getElem?_eq_none (by rw [length_slice]; omega),
      List.getElem?_eq_none (by rw [List.length_take]; omega)]

end H2pp.Utils.Span

namespace H2pp.Hpack

open Utils

/-- `ibitstream::take_bits(len)` at a given offset. -/
def takeBits (data : Span) (offset len : Nat) : Except Failure Nat :=
  let lastInd := (offset + len) / 8
  let lastGap := 8 - (offset + len) % 8
  let bytesLen := lastInd - offset / 8 + 1
  let firstGap := offset % 8
  let bits := Bits.wordOf
    ((List.range 8).map fun index : Nat => data.mem ((lastInd : Int) - 7 + index))
  let bits := bits &&& (makeMask 64 len <<< lastGap) % 2 ^ 64
  let shift := (32 + (2 ^ 64 - bytesLen * 8) + firstGap) % 2 ^ 64
  if shift < 64 then .ok ((bits <<< shift) % 2 ^ 64 % 2 ^ 32) else .error .undefinedBehaviour

/-- The word read is the eight bytes up to the last one. -/
theorem testBit_word (data : Span) (last index : Nat) (inside : index < 64) :
    (Bits.wordOf ((List.range 8).map fun offset : Nat =>
        data.mem ((last : Int) - 7 + offset))).testBit index =
      (data.mem ((last : Int) - (index / 8 : Nat))).toNat.testBit (index % 8) := by
  have bit := Bits.testBit_wordOf ((List.range 8).map fun offset : Nat =>
    data.mem ((last : Int) - 7 + offset)) index (by simpa using inside)
  rw [List.length_map, List.length_range, List.getElem?_map,
    List.getElem?_range (by omega)] at bit
  simp only [Option.map_some, Option.some.injEq] at bit
  rw [bit, show (last : Int) - 7 + ((8 - 1 - index / 8 : Nat) : Int) =
    (last : Int) - (index / 8 : Nat) by omega]

/-- Masking `len` bits above a gap and shifting them to the top of 32 bits. -/
theorem testBit_window (word len gap shift index : Nat) (fit : len + gap + shift = 32)
    (within : index < 32) :
    (((word &&& (makeMask 64 len <<< gap) % 2 ^ 64) <<< shift) % 2 ^ 64 % 2 ^ 32).testBit
        (31 - index) =
      (decide (index < len) && word.testBit (gap + len - 1 - index)) := by
  rw [makeMask_of_lt (by omega), Nat.testBit_mod_two_pow, Nat.testBit_mod_two_pow,
    Nat.testBit_shiftLeft, Nat.testBit_and, Nat.testBit_mod_two_pow, Nat.testBit_shiftLeft,
    Nat.testBit_two_pow_sub_one]
  by_cases below : index < len
  · rw [show 31 - index - shift = gap + len - 1 - index by omega]
    simp only [show 31 - index < 32 by omega, show 31 - index < 64 by omega,
      show 31 - index ≥ shift by omega, show gap + len - 1 - index < 64 by omega,
      show gap + len - 1 - index ≥ gap by omega, show gap + len - 1 - index - gap < len by omega,
      below, decide_true, Bool.true_and, Bool.and_true]
  · by_cases low : 31 - index ≥ shift
    · simp only [show ¬ 31 - index - shift ≥ gap by omega, below, decide_false, Bool.false_and,
        Bool.and_false]
    · simp only [low, below, decide_false, Bool.false_and, Bool.and_false]

/-- **What `take_bits` returns.** Bits that cover at most four bytes come back at
the top of the 32-bit result, with zeros below them; bits that cover five bytes
make the shift undefined. -/
theorem takeBits_spec (data : Span) (offset len : Nat) (small : len ≤ 32) :
    if offset % 8 + len < 32 then
      ∃ code, takeBits data offset len = .ok code ∧ code < 2 ^ 32 ∧
        Bits.ofNat 32 code = data.slice offset len ++ List.replicate (32 - len) false
    else takeBits data offset len = .error .undefinedBehaviour := by
  have covered : (offset + len) / 8 - offset / 8 = (offset % 8 + len) / 8 := by omega
  split
  · rename_i inside
    have shift : (32 + (2 ^ 64 - ((offset + len) / 8 - offset / 8 + 1) * 8) + offset % 8) %
        2 ^ 64 = 24 + offset % 8 - (offset % 8 + len) / 8 * 8 := by omega
    simp only [takeBits, shift]
    rw [if_pos (by omega)]
    refine ⟨_, rfl, Nat.mod_lt _ (by decide), ?_⟩
    apply List.ext_getElem?
    intro index
    by_cases within : index < 32
    · rw [Bits.ofNat_getElem? 32 _ _ within, testBit_window _ _ _ _ _ (by omega) within]
      by_cases below : index < len
      · rw [List.getElem?_append_left (by rw [Span.length_slice]; exact below), Span.slice,
          List.getElem?_map, List.getElem?_range below, testBit_word _ _ _ (by omega)]
        -- the bits of the word from its low end are the bits of memory from the end backwards
        have byte : ((offset + len) / 8 : Int) -
            ((8 - (offset + len) % 8 + len - 1 - index) / 8 : Nat) =
              ((offset + index) / 8 : Nat) := by omega
        have place : (8 - (offset + len) % 8 + len - 1 - index) % 8 =
            7 - (offset + index) % 8 := by omega
        simp only [below, decide_true, Bool.true_and, Option.map_some, Span.bit, place]
        exact congrArg (fun address => some ((data.mem address).toNat.testBit _)) byte
      · rw [List.getElem?_append_right (by rw [Span.length_slice]; omega), Span.length_slice,
          List.getElem?_replicate, if_pos (by omega)]
        simp only [below, decide_false, Bool.false_and]
    · rw [List.getElem?_eq_none (by rw [Bits.length_ofNat]; omega),
        List.getElem?_eq_none (by
          rw [List.length_append, Span.length_slice, List.length_replicate]; omega)]
  · rename_i outside
    have shift : 64 ≤ (32 + (2 ^ 64 - ((offset + len) / 8 - offset / 8 + 1) * 8) + offset % 8) %
        2 ^ 64 := by omega
    simp only [takeBits, Nat.not_lt.mpr shift, ↓reduceIte]

/-- Whatever the memory around some bytes holds, `take_bits` returns the bits asked for at
the top of the 32-bit result, with zeros below them. -/
def Extracts (bytes : Bytes) (offset len : Nat) : Prop :=
  ∀ data : Span, data.bytes = bytes → ∃ code, takeBits data offset len = .ok code ∧
    code < 2 ^ 32 ∧
    Bits.ofNat 32 code =
      ((Bits.ofBytes bytes).drop offset).take len ++ List.replicate (32 - len) false

/-- **Extraction.** Bits inside the data are extracted exactly if they end before the
fourth byte boundary behind the byte they start in. -/
theorem extracts_iff {bytes : Bytes} {offset len : Nat} (small : len ≤ 32)
    (inside : offset + len ≤ 8 * bytes.length) :
    Extracts bytes offset len ↔ offset % 8 + len < 32 := by
  constructor
  · intro extracts
    obtain ⟨code, taken, -, -⟩ := extracts (.ofBytes (fun _ => 0) bytes) (Span.bytes_ofBytes _ _)
    have spec := takeBits_spec (.ofBytes (fun _ => 0) bytes) offset len small
    by_contra outside
    rw [if_neg outside, taken] at spec
    cases spec
  · intro within data content
    have spec := takeBits_spec data offset len small
    rw [if_pos within] at spec
    obtain ⟨code, taken, bound, bits⟩ := spec
    rw [← content, Span.length_bytes] at inside
    rw [data.slice_eq offset len inside, content] at bits
    exact ⟨code, taken, bound, bits⟩

/-- Ten bits across the boundary of two bytes. -/
theorem extracts_across_bytes :
    Extracts [0xab, 0xcd] 3 10 ∧ takeBits (.ofBytes (fun _ => 0xff) [0xab, 0xcd]) 3 10 =
      .ok 0x5e400000 :=
  ⟨(extracts_iff (by decide) (by decide)).mpr (by decide), by decide +kernel⟩

/-- Four whole bytes are not extracted: the shift distance is negative. -/
theorem not_extracts_four_bytes :
    takeBits (.ofBytes (fun _ => 0) [1, 2, 3, 4]) 0 32 = .error .undefinedBehaviour ∧
      ¬ Extracts [1, 2, 3, 4] 0 32 := by
  have undefined : takeBits (.ofBytes (fun _ => 0) [1, 2, 3, 4]) 0 32 =
      .error .undefinedBehaviour := by
    decide +kernel
  refine ⟨undefined, fun extracts => ?_⟩
  obtain ⟨code, taken, -, -⟩ := extracts _ (Span.bytes_ofBytes (fun _ => 0) [1, 2, 3, 4])
  rw [undefined] at taken
  cases taken

/-- `ibitstream::commit_bits(bit_len)`: the offset after it. -/
def commitBits (data : Span) (offset bitLen : Nat) : Nat := min (offset + bitLen) (data.size * 8)

end H2pp.Hpack

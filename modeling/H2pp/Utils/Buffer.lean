import H2pp.Error
import Mathlib.Data.Nat.Bitwise

/-! # Masks and fixed-size buffers

`utils/utils.h` and `utils/buffer.h`. A buffer is the slice of memory it owns,
of which the first `offset` bytes have been written; the rest of the memory is
never read, so the model keeps the written bytes and the size of the slice.
-/

namespace H2pp.Utils

/-- `make_mask<T>(n)` for an unsigned type of `width` bits. -/
def makeMask (width n : Nat) : Nat :=
  let initMask := if n > width - 1 then 0 else 1
  (initMask <<< n + (2 ^ width - 1)) % 2 ^ width

/-- Within the width, a mask is a run of ones. -/
theorem makeMask_of_lt {width n : Nat} (below : n < width) : makeMask width n = 2 ^ n - 1 := by
  have power : 2 ^ n < 2 ^ width := Nat.pow_lt_pow_right (by omega) below
  have positive : 0 < 2 ^ n := Nat.two_pow_pos n
  simp only [makeMask, show ¬ n > width - 1 by omega, ↓reduceIte]
  rw [Nat.one_shiftLeft,
    show 2 ^ n + (2 ^ width - 1) = (2 ^ n - 1) + 2 ^ width by omega, Nat.add_mod_right,
    Nat.mod_eq_of_lt (by omega)]

/-- `ceil_order2(value, order)` on `size_t`. -/
def ceilOrder2 (value order : Nat) : Nat :=
  (value + makeMask 64 order) % 2 ^ 64 &&& (2 ^ 64 - 1 - makeMask 64 order)

/-- Rounding a bit count up to whole bytes. -/
theorem ceilOrder2_three (value : Nat) (bound : value + 7 < 2 ^ 64) :
    ceilOrder2 value 3 / 8 = (value + 7) / 8 := by
  have mask : makeMask 64 3 = 7 := by decide
  have keep : ∀ word < 2 ^ 64, (word &&& (2 ^ 64 - 1 - 7)) / 8 = word / 8 := by
    intro word _
    apply Nat.eq_of_testBit_eq
    intro index
    rw [show (8 : Nat) = 2 ^ 3 by rfl, Nat.testBit_div_two_pow, Nat.testBit_div_two_pow,
      Nat.testBit_and, show 2 ^ 64 - 1 - 7 = (2 ^ 61 - 1) <<< 3 by rfl, Nat.testBit_shiftLeft,
      Nat.testBit_two_pow_sub_one]
    by_cases below : index < 61
    · simp only [ge_iff_le, Nat.le_add_left, decide_true, Nat.add_sub_cancel, below,
        Bool.and_self, Bool.and_true]
    · have power : 2 ^ 64 ≤ 2 ^ (index + 3) := Nat.pow_le_pow_right (by omega) (by omega)
      rw [Nat.testBit_lt_two_pow (by omega), Bool.false_and]
  unfold ceilOrder2
  rw [mask, Nat.mod_eq_of_lt bound, keep _ bound]

/-- Subtraction on `size_t`. -/
def sizeSub (lhs rhs : Nat) : Nat := if rhs ≤ lhs then lhs - rhs else lhs + 2 ^ 64 - rhs

/-- A subtraction that does not wrap around. -/
theorem sizeSub_of_le {lhs rhs : Nat} (le : rhs ≤ lhs) : sizeSub lhs rhs = lhs - rhs := if_pos le

/-- Subtracting nothing. -/
@[simp] theorem sizeSub_zero (lhs : Nat) : sizeSub lhs 0 = lhs := sizeSub_of_le (Nat.zero_le _)

/-- A subtraction can be undone exactly if it does not wrap. -/
theorem sizeSub_add_eq_iff (lhs rhs : Nat) : sizeSub lhs rhs + rhs = lhs ↔ rhs ≤ lhs := by
  unfold sizeSub
  split <;> omega

/-- `utils::buffer`: `maxSize` bytes of memory, the first of them written. -/
structure Buffer where
  maxSize : Nat
  data : Bytes
  fits : data.length ≤ maxSize
  deriving DecidableEq, Repr

namespace Buffer

/-- `buffer(size)`: an empty buffer. -/
def create (size : Nat) : Buffer := ⟨size, [], Nat.zero_le _⟩

/-- `prepare().size_bytes()`: the room left. -/
def prepareSize (buffer : Buffer) : Nat := buffer.maxSize - buffer.data.length

/-- `commit(span)`: append as much of `span` as fits. -/
def commit (buffer : Buffer) (span : Bytes) : Buffer where
  maxSize := buffer.maxSize
  data := buffer.data ++ span.take (min buffer.prepareSize span.length)
  fits := by
    have bound := buffer.fits
    rw [List.length_append, List.length_take]
    unfold prepareSize
    omega

/-- `consume(count)`: drop the first `count` written bytes. -/
def consume (buffer : Buffer) (count : Nat) : Buffer where
  maxSize := buffer.maxSize
  data := buffer.data.drop (min buffer.data.length count)
  fits := by
    have bound := buffer.fits
    rw [List.length_drop]
    omega

/-- The source of a move: no memory and nothing written. -/
def movedFrom : Buffer := create 0

/-- A new buffer is empty. -/
@[simp] theorem create_data (size : Nat) : (create size).data = [] := rfl

/-- A new buffer has the size that was asked for. -/
@[simp] theorem create_maxSize (size : Nat) : (create size).maxSize = size := rfl

/-- Committing does not change the size of the storage. -/
@[simp] theorem commit_maxSize (buffer : Buffer) (span : Bytes) :
    (buffer.commit span).maxSize = buffer.maxSize := rfl

/-- A span that fits is appended whole. -/
theorem commit_data {buffer : Buffer} {span : Bytes}
    (room : span.length ≤ buffer.prepareSize) :
    (buffer.commit span).data = buffer.data ++ span := by
  change buffer.data ++ span.take (min buffer.prepareSize span.length) = buffer.data ++ span
  rw [Nat.min_eq_right room, List.take_length]

/-- Consuming takes bytes from the front. -/
@[simp] theorem consume_data (buffer : Buffer) (count : Nat) :
    (buffer.consume count).data = buffer.data.drop count := by
  change buffer.data.drop (min buffer.data.length count) = buffer.data.drop count
  by_cases inside : count ≤ buffer.data.length
  · rw [Nat.min_eq_right inside]
  · rw [Nat.min_eq_left (by omega), List.drop_length, List.drop_of_length_le (by omega)]

end Buffer

end H2pp.Utils

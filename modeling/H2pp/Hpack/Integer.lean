import H2pp.Utils.Buffer

/-! # HPACK commands and prefix integers

`hpack/constants.h` and `hpack/integer.cpp`. An integer is written after the
high bits of a command or string flag; what does not fit in the rest of the
first byte follows in groups of seven bits, lowest group first.
-/

namespace H2pp.Hpack

open Utils

/-- `constants::string_flag`. -/
inductive StringFlag
  | inplace
  | encoded
  deriving DecidableEq, Repr

def StringFlag.value : StringFlag → UInt8
  | .inplace => 0
  | .encoded => 0x80

/-- `rfc7541::command`. -/
inductive Command
  | index
  | literalIncrementalIndex
  | changeTableSize
  | literalWithoutIndex
  | literalNeverIndex
  deriving DecidableEq, Repr

namespace Command

/-- `cmd_info::get(cmd).value`. -/
def value : Command → UInt8
  | .index => 0x80
  | .literalIncrementalIndex => 0x40
  | .changeTableSize => 0x20
  | .literalWithoutIndex => 0x00
  | .literalNeverIndex => 0x10

/-- `cmd_info::get(cmd).bitlen`. -/
def bitlen : Command → Nat
  | .index => 1
  | .literalIncrementalIndex => 2
  | .changeTableSize => 3
  | .literalWithoutIndex => 4
  | .literalNeverIndex => 4

/-- `cmd_info::get(cmd).mask`. -/
def mask : Command → UInt8
  | .index => 0x80
  | .literalIncrementalIndex => 0xc0
  | .changeTableSize => 0xe0
  | .literalWithoutIndex => 0xf0
  | .literalNeverIndex => 0xf0

end Command

namespace Integer

/-- `MAX_HPACK_INT`. -/
def maxHpackInt : Nat := 2 ^ 24 - 16

/-- The groups after the first byte. A 32-bit value has at most five of them,
so five rounds of the loop are enough. -/
def encodeGroups : Nat → Nat → Bytes
  | 0, _ => []
  | rounds + 1, value =>
      if value ≥ 0x80 then
        UInt8.ofNat (value &&& 0x7f ||| 0x80) :: encodeGroups rounds (value / 128)
      else [UInt8.ofNat (value &&& 0x7f)]

/-- `integer::encode(init, bitlen, src_value)`: the bytes of
`encoded_result::as_span()`. -/
def encode (init : UInt8) (bitlen srcValue : Nat) : Except Failure Bytes :=
  if srcValue > maxHpackInt then
    .error (.overflowError "A value must be less than 2^24-1")
  else
    let mask := makeMask 8 (8 - bitlen)
    if srcValue < mask then .ok [init ||| UInt8.ofNat (srcValue &&& mask)]
    else .ok ((init ||| UInt8.ofNat mask) :: encodeGroups 5 (srcValue - mask))

/-- `integer::encode(cmd, src_value)`. -/
def encodeCommand (cmd : Command) (srcValue : Nat) : Except Failure Bytes :=
  encode cmd.value cmd.bitlen srcValue

/-- `integer::encode(flag, src_value)`. -/
def encodeFlag (flag : StringFlag) (srcValue : Nat) : Except Failure Bytes :=
  encode flag.value 1 srcValue

/-- `integer::decoded_result`. -/
structure DecodedResult where
  usedBytes : Nat
  value : Nat
  deriving DecidableEq, Repr

/-- The loop over the groups; `m` is the shift of the next group and `used` the
number of bytes before it. A shift by the width of the word is undefined. -/
def decodeGroups (value m used : Nat) : Bytes → Except Failure DecodedResult
  | [] => .error (.invalidArgument "A src has not enough data")
  | b :: src =>
      if m ≥ 64 then .error .undefinedBehaviour
      else
        let value := (value + (b.toNat &&& 0x7f) <<< m % 2 ^ 64) % 2 ^ 64
        if value > maxHpackInt then
          .error (.overflowError "An overflow in HPACK int decoding")
        else if b.toNat &&& 0x80 ≠ 0 then decodeGroups value (m + 7) (used + 1) src
        else .ok ⟨used + 1, value⟩

/-- `integer::decode(bit_suffix_len, init_src)`. -/
def decode (bitSuffixLen : Nat) (initSrc : Bytes) : Except Failure DecodedResult :=
  match initSrc with
  | [] => .error (.invalidArgument "A source can't be empty. A suffix len can't be greater 4")
  | front :: src =>
      if bitSuffixLen > 4 ∨ bitSuffixLen = 0 then
        .error (.invalidArgument "A source can't be empty. A suffix len can't be greater 4")
      else
        let mask := makeMask 8 (8 - bitSuffixLen)
        let value := front.toNat &&& mask
        if value < mask then .ok ⟨1, value⟩ else decodeGroups value 0 1 src

/-- A group byte with the continuation bit set. -/
theorem continued_toNat (value : Nat) :
    (UInt8.ofNat (value &&& 0x7f ||| 0x80)).toNat = value % 128 + 128 := by
  have group : value &&& 0x7f = value % 128 := Nat.and_two_pow_sub_one_eq_mod value 7
  have joined : ∀ low < 128, low ||| 0x80 = low + 128 := by decide
  rw [group, joined _ (Nat.mod_lt _ (by decide)), UInt8.toNat_ofNat']
  omega

/-- The last group byte. -/
theorem last_toNat (value : Nat) (small : value < 0x80) :
    (UInt8.ofNat (value &&& 0x7f)).toNat = value := by
  have group : value &&& 0x7f = value % 128 := Nat.and_two_pow_sub_one_eq_mod value 7
  rw [group, UInt8.toNat_ofNat']
  omega

/-- The seven bits of a group, and the bit that tells whether more follow. -/
theorem group_bits : ∀ low < 128, (low + 128) &&& 0x7f = low ∧ (low + 128) &&& 0x80 ≠ 0 ∧
    low &&& 0x7f = low ∧ low &&& 0x80 = 0 := by
  decide

/-- Within the admitted range a group is added without wrapping. -/
theorem add_group {start group m : Nat} (bound : start + group * 2 ^ m ≤ maxHpackInt) :
    (start + group <<< m % 2 ^ 64) % 2 ^ 64 = start + group * 2 ^ m := by
  have limit : maxHpackInt = 16777200 := rfl
  rw [Nat.shiftLeft_eq, Nat.mod_eq_of_lt (show group * 2 ^ m < 2 ^ 64 by omega),
    Nat.mod_eq_of_lt (by omega)]

/-- The loop goes on after a group byte with the continuation bit. -/
theorem decodeGroups_continued {value start m : Nat} (used : Nat) (tail : Bytes) (shift : m < 64)
    (bound : start + value % 128 * 2 ^ m ≤ maxHpackInt) :
    decodeGroups start m used (UInt8.ofNat (value &&& 0x7f ||| 0x80) :: tail) =
      decodeGroups (start + value % 128 * 2 ^ m) (m + 7) (used + 1) tail := by
  obtain ⟨low, go, -, -⟩ := group_bits (value % 128) (Nat.mod_lt _ (by decide))
  simp only [decodeGroups, continued_toNat, low, add_group bound, go, ne_eq, not_false_eq_true,
    ↓reduceIte, show ¬ m ≥ 64 by omega, show ¬ start + value % 128 * 2 ^ m > maxHpackInt by omega]

/-- The loop ends at a group byte without the continuation bit. -/
theorem decodeGroups_last {value start m : Nat} (used : Nat) (tail : Bytes)
    (small : value < 0x80) (shift : m < 64) (bound : start + value * 2 ^ m ≤ maxHpackInt) :
    decodeGroups start m used (UInt8.ofNat (value &&& 0x7f) :: tail) =
      .ok ⟨used + 1, start + value * 2 ^ m⟩ := by
  obtain ⟨-, -, low, stop⟩ := group_bits value small
  simp only [decodeGroups, last_toNat value small]
  simp only [low, add_group bound, stop, ne_eq, not_true_eq_false, ↓reduceIte,
    show ¬ m ≥ 64 by omega, show ¬ start + value * 2 ^ m > maxHpackInt by omega]

/-- Reading back the groups of `value` adds `value`, shifted to the position of
the first group, to what was read before, and uses exactly those bytes. -/
theorem decodeGroups_encodeGroups (rounds value start m used : Nat) (tail : Bytes)
    (enough : value < 128 ^ (rounds + 1)) (shift : m + 7 * rounds < 64)
    (bound : start + value * 2 ^ m ≤ maxHpackInt) :
    decodeGroups start m used (encodeGroups (rounds + 1) value ++ tail) =
      .ok ⟨used + (encodeGroups (rounds + 1) value).length, start + value * 2 ^ m⟩ := by
  induction rounds generalizing value start m used with
  | zero =>
      have small : value < 0x80 := by omega
      simp only [encodeGroups, show ¬ value ≥ 0x80 by omega, ↓reduceIte, List.cons_append,
        List.nil_append, List.length_singleton]
      exact decodeGroups_last used tail small (by omega) bound
  | succ rounds ih =>
      unfold encodeGroups
      by_cases more : value ≥ 0x80
      · have parts : value % 128 * 2 ^ m + value / 128 * 2 ^ (m + 7) = value * 2 ^ m := by
          rw [Nat.pow_add, show (2 : Nat) ^ 7 = 128 by rfl, Nat.mul_comm (2 ^ m) 128,
            ← Nat.mul_assoc, ← Nat.add_mul, Nat.mul_comm (value / 128), Nat.mod_add_div]
        have next := ih (value / 128) (start + value % 128 * 2 ^ m) (m + 7) (used + 1)
          (Nat.div_lt_of_lt_mul (by rw [← Nat.pow_succ']; exact enough)) (by omega) (by omega)
        rw [if_pos more, List.cons_append,
          decodeGroups_continued used _ (by omega) (by omega), next, List.length_cons]
        simp only [Except.ok.injEq, DecodedResult.mk.injEq]
        omega
      · rw [if_neg more]
        exact decodeGroups_last used tail (by omega) (by omega) bound

/-- The low bits of the first byte read back as they were written below a
prefix that leaves them free. -/
theorem front_low {init : UInt8} {bits low : Nat} (bitsBound : bits ≤ 8)
    (free : init.toNat % 2 ^ bits = 0) (bound : low < 2 ^ bits) :
    (init ||| UInt8.ofNat low).toNat &&& (2 ^ bits - 1) = low := by
  have width : 2 ^ bits ≤ 2 ^ 8 := Nat.pow_le_pow_right (by omega) bitsBound
  rw [UInt8.toNat_or, UInt8.toNat_ofNat', Nat.mod_eq_of_lt (show low < 2 ^ 8 by omega),
    Nat.and_two_pow_sub_one_eq_mod, Nat.or_mod_two_pow, free, Nat.zero_or, Nat.mod_eq_of_lt bound]

/-- **Integer round trip.** A value up to `MAX_HPACK_INT` is written below the
prefix and read back with any bytes after it. -/
theorem encode_decode {init : UInt8} {bitlen value : Nat} (lower : 1 ≤ bitlen)
    (upper : bitlen ≤ 4) (free : init.toNat % 2 ^ (8 - bitlen) = 0)
    (bound : value ≤ maxHpackInt) :
    ∃ low rest, low < 2 ^ (8 - bitlen) ∧
      encode init bitlen value = .ok ((init ||| UInt8.ofNat low) :: rest) ∧
      ∀ tail, decode bitlen ((init ||| UInt8.ofNat low) :: (rest ++ tail)) =
        .ok ⟨1 + rest.length, value⟩ := by
  have mask : makeMask 8 (8 - bitlen) = 2 ^ (8 - bitlen) - 1 := makeMask_of_lt (by omega)
  have positive : 0 < 2 ^ (8 - bitlen) := Nat.two_pow_pos _
  have limit : maxHpackInt = 16777200 := rfl
  have admitted : ¬ (bitlen > 4 ∨ bitlen = 0) := by omega
  by_cases short : value < 2 ^ (8 - bitlen) - 1
  · refine ⟨value, [], by omega, ?_, ?_⟩
    · have low : value &&& (2 ^ (8 - bitlen) - 1) = value := by
        rw [Nat.and_two_pow_sub_one_eq_mod, Nat.mod_eq_of_lt (by omega)]
      simp only [encode, mask, short, low, ↓reduceIte, show ¬ value > maxHpackInt by omega]
    · intro tail
      have low : (init ||| UInt8.ofNat value).toNat &&& (2 ^ (8 - bitlen) - 1) = value :=
        front_low (by omega) free (by omega)
      simp only [decode, mask, admitted, low, short, ↓reduceIte, List.length_nil]
  · refine ⟨2 ^ (8 - bitlen) - 1, encodeGroups 5 (value - (2 ^ (8 - bitlen) - 1)), by omega,
      ?_, ?_⟩
    · simp only [encode, mask, short, ↓reduceIte, show ¬ value > maxHpackInt by omega]
    · intro tail
      have low : (init ||| UInt8.ofNat (2 ^ (8 - bitlen) - 1)).toNat &&& (2 ^ (8 - bitlen) - 1) =
          2 ^ (8 - bitlen) - 1 := front_low (by omega) free (by omega)
      have groups := decodeGroups_encodeGroups 4 (value - (2 ^ (8 - bitlen) - 1))
        (2 ^ (8 - bitlen) - 1) 0 1 tail (by omega) (by omega) (by omega)
      simp only [decode, mask, admitted, low, Nat.lt_irrefl, ↓reduceIte]
      rw [groups]
      simp only [Except.ok.injEq, DecodedResult.mk.injEq, Nat.pow_zero, Nat.mul_one, true_and]
      omega

/-- A command's prefix leaves the bits of its integer free. -/
theorem command_free (cmd : Command) :
    1 ≤ cmd.bitlen ∧ cmd.bitlen ≤ 4 ∧ cmd.value.toNat % 2 ^ (8 - cmd.bitlen) = 0 := by
  cases cmd <;> decide

/-- A string flag leaves the bits of the length free. -/
theorem flag_free (flag : StringFlag) : flag.value.toNat % 2 ^ (8 - 1) = 0 := by
  cases flag <;> decide

section Append

variable {bits value shift used : Nat} {src : Bytes} {result : DecodedResult}

private theorem decodeGroups_append (decoded : decodeGroups value shift used src = .ok result)
    (more : Bytes) :
    decodeGroups value shift used (src ++ more) = .ok result ∧ used < result.usedBytes ∧
      result.usedBytes ≤ used + src.length := by
  induction src generalizing value shift used with
  | nil => cases decoded
  | cons front src ih =>
      unfold decodeGroups at decoded
      rw [List.cons_append, decodeGroups]
      split at decoded
      · cases decoded
      · rename_i defined
        rw [if_neg defined]
        simp only at decoded ⊢
        split at decoded
        · cases decoded
        · rename_i small
          rw [if_neg small]
          split at decoded
          · rename_i continued
            rw [if_pos continued]
            obtain ⟨same, lower, upper⟩ := ih decoded
            rw [List.length_cons]
            exact ⟨same, by omega, by omega⟩
          · rename_i last
            rw [if_neg last]
            cases decoded
            exact ⟨rfl, Nat.lt_succ_self _, Nat.add_le_add_left (Nat.le_add_left _ _) _⟩

/-- An integer is read alike when more bytes follow. -/
theorem decode_append (decoded : decode bits src = .ok result) (more : Bytes) :
    decode bits (src ++ more) = .ok result ∧ 0 < result.usedBytes ∧
      result.usedBytes ≤ src.length := by
  cases src with
  | nil => cases decoded
  | cons front src =>
      simp only [decode, List.cons_append, List.length_cons] at decoded ⊢
      split at decoded
      · cases decoded
      · rename_i allowed
        rw [if_neg allowed]
        split at decoded
        · rename_i small
          rw [if_pos small]
          cases decoded
          exact ⟨rfl, Nat.one_pos, Nat.le_add_left _ _⟩
        · rename_i large
          rw [if_neg large]
          obtain ⟨same, lower, upper⟩ := decodeGroups_append decoded more
          exact ⟨same, by omega, by omega⟩

end Append

end Integer

end H2pp.Hpack

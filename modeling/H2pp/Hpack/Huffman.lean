import H2pp.Error
import H2pp.Lib.Bits
import H2pp.Lib.PrefixCode

/-! # The Huffman code

`hpack/huffman.cpp`. The table gives for every byte, and for the end-of-string
symbol 256, its code left-aligned in 32 bits and its length; a perfect hash of
the four bytes of a code finds its symbol. The tables are those of the source,
entry for entry. What the proofs need of them is computed once: the codes are
the leaves of one tree, and the hash finds each of them.
-/

namespace H2pp.Hpack.Huffman

/-- `huffman_code`: a code left-aligned in 32 bits, and its length in bits. -/
structure HuffmanCode where
  huffmanCode : Nat
  bitLength : Nat
  deriving DecidableEq, Repr

/-- `EOS`. -/
def eos : Nat := 256

/-- `huffman_table`; the symbol is the position. -/
@[irreducible] def huffmanTable : List HuffmanCode := [
    ⟨0xffc00000, 13⟩, ⟨0xffffb000, 23⟩, ⟨0xfffffe20, 28⟩, ⟨0xfffffe30, 28⟩, ⟨0xfffffe40, 28⟩,
    ⟨0xfffffe50, 28⟩, ⟨0xfffffe60, 28⟩, ⟨0xfffffe70, 28⟩, ⟨0xfffffe80, 28⟩, ⟨0xffffea00, 24⟩,
    ⟨0xfffffff0, 30⟩, ⟨0xfffffe90, 28⟩, ⟨0xfffffea0, 28⟩, ⟨0xfffffff4, 30⟩, ⟨0xfffffeb0, 28⟩,
    ⟨0xfffffec0, 28⟩, ⟨0xfffffed0, 28⟩, ⟨0xfffffee0, 28⟩, ⟨0xfffffef0, 28⟩, ⟨0xffffff00, 28⟩,
    ⟨0xffffff10, 28⟩, ⟨0xffffff20, 28⟩, ⟨0xfffffff8, 30⟩, ⟨0xffffff30, 28⟩, ⟨0xffffff40, 28⟩,
    ⟨0xffffff50, 28⟩, ⟨0xffffff60, 28⟩, ⟨0xffffff70, 28⟩, ⟨0xffffff80, 28⟩, ⟨0xffffff90, 28⟩,
    ⟨0xffffffa0, 28⟩, ⟨0xffffffb0, 28⟩, ⟨0x50000000, 6⟩, ⟨0xfe000000, 10⟩, ⟨0xfe400000, 10⟩,
    ⟨0xffa00000, 12⟩, ⟨0xffc80000, 13⟩, ⟨0x54000000, 6⟩, ⟨0xf8000000, 8⟩, ⟨0xff400000, 11⟩,
    ⟨0xfe800000, 10⟩, ⟨0xfec00000, 10⟩, ⟨0xf9000000, 8⟩, ⟨0xff600000, 11⟩, ⟨0xfa000000, 8⟩,
    ⟨0x58000000, 6⟩, ⟨0x5c000000, 6⟩, ⟨0x60000000, 6⟩, ⟨0x00000000, 5⟩, ⟨0x08000000, 5⟩,
    ⟨0x10000000, 5⟩, ⟨0x64000000, 6⟩, ⟨0x68000000, 6⟩, ⟨0x6c000000, 6⟩, ⟨0x70000000, 6⟩,
    ⟨0x74000000, 6⟩, ⟨0x78000000, 6⟩, ⟨0x7c000000, 6⟩, ⟨0xb8000000, 7⟩, ⟨0xfb000000, 8⟩,
    ⟨0xfff80000, 15⟩, ⟨0x80000000, 6⟩, ⟨0xffb00000, 12⟩, ⟨0xff000000, 10⟩, ⟨0xffd00000, 13⟩,
    ⟨0x84000000, 6⟩, ⟨0xba000000, 7⟩, ⟨0xbc000000, 7⟩, ⟨0xbe000000, 7⟩, ⟨0xc0000000, 7⟩,
    ⟨0xc2000000, 7⟩, ⟨0xc4000000, 7⟩, ⟨0xc6000000, 7⟩, ⟨0xc8000000, 7⟩, ⟨0xca000000, 7⟩,
    ⟨0xcc000000, 7⟩, ⟨0xce000000, 7⟩, ⟨0xd0000000, 7⟩, ⟨0xd2000000, 7⟩, ⟨0xd4000000, 7⟩,
    ⟨0xd6000000, 7⟩, ⟨0xd8000000, 7⟩, ⟨0xda000000, 7⟩, ⟨0xdc000000, 7⟩, ⟨0xde000000, 7⟩,
    ⟨0xe0000000, 7⟩, ⟨0xe2000000, 7⟩, ⟨0xe4000000, 7⟩, ⟨0xfc000000, 8⟩, ⟨0xe6000000, 7⟩,
    ⟨0xfd000000, 8⟩, ⟨0xffd80000, 13⟩, ⟨0xfffe0000, 19⟩, ⟨0xffe00000, 13⟩, ⟨0xfff00000, 14⟩,
    ⟨0x88000000, 6⟩, ⟨0xfffa0000, 15⟩, ⟨0x18000000, 5⟩, ⟨0x8c000000, 6⟩, ⟨0x20000000, 5⟩,
    ⟨0x90000000, 6⟩, ⟨0x28000000, 5⟩, ⟨0x94000000, 6⟩, ⟨0x98000000, 6⟩, ⟨0x9c000000, 6⟩,
    ⟨0x30000000, 5⟩, ⟨0xe8000000, 7⟩, ⟨0xea000000, 7⟩, ⟨0xa0000000, 6⟩, ⟨0xa4000000, 6⟩,
    ⟨0xa8000000, 6⟩, ⟨0x38000000, 5⟩, ⟨0xac000000, 6⟩, ⟨0xec000000, 7⟩, ⟨0xb0000000, 6⟩,
    ⟨0x40000000, 5⟩, ⟨0x48000000, 5⟩, ⟨0xb4000000, 6⟩, ⟨0xee000000, 7⟩, ⟨0xf0000000, 7⟩,
    ⟨0xf2000000, 7⟩, ⟨0xf4000000, 7⟩, ⟨0xf6000000, 7⟩, ⟨0xfffc0000, 15⟩, ⟨0xff800000, 11⟩,
    ⟨0xfff40000, 14⟩, ⟨0xffe80000, 13⟩, ⟨0xffffffc0, 28⟩, ⟨0xfffe6000, 20⟩, ⟨0xffff4800, 22⟩,
    ⟨0xfffe7000, 20⟩, ⟨0xfffe8000, 20⟩, ⟨0xffff4c00, 22⟩, ⟨0xffff5000, 22⟩, ⟨0xffff5400, 22⟩,
    ⟨0xffffb200, 23⟩, ⟨0xffff5800, 22⟩, ⟨0xffffb400, 23⟩, ⟨0xffffb600, 23⟩, ⟨0xffffb800, 23⟩,
    ⟨0xffffba00, 23⟩, ⟨0xffffbc00, 23⟩, ⟨0xffffeb00, 24⟩, ⟨0xffffbe00, 23⟩, ⟨0xffffec00, 24⟩,
    ⟨0xffffed00, 24⟩, ⟨0xffff5c00, 22⟩, ⟨0xffffc000, 23⟩, ⟨0xffffee00, 24⟩, ⟨0xffffc200, 23⟩,
    ⟨0xffffc400, 23⟩, ⟨0xffffc600, 23⟩, ⟨0xffffc800, 23⟩, ⟨0xfffee000, 21⟩, ⟨0xffff6000, 22⟩,
    ⟨0xffffca00, 23⟩, ⟨0xffff6400, 22⟩, ⟨0xffffcc00, 23⟩, ⟨0xffffce00, 23⟩, ⟨0xffffef00, 24⟩,
    ⟨0xffff6800, 22⟩, ⟨0xfffee800, 21⟩, ⟨0xfffe9000, 20⟩, ⟨0xffff6c00, 22⟩, ⟨0xffff7000, 22⟩,
    ⟨0xffffd000, 23⟩, ⟨0xffffd200, 23⟩, ⟨0xfffef000, 21⟩, ⟨0xffffd400, 23⟩, ⟨0xffff7400, 22⟩,
    ⟨0xffff7800, 22⟩, ⟨0xfffff000, 24⟩, ⟨0xfffef800, 21⟩, ⟨0xffff7c00, 22⟩, ⟨0xffffd600, 23⟩,
    ⟨0xffffd800, 23⟩, ⟨0xffff0000, 21⟩, ⟨0xffff0800, 21⟩, ⟨0xffff8000, 22⟩, ⟨0xffff1000, 21⟩,
    ⟨0xffffda00, 23⟩, ⟨0xffff8400, 22⟩, ⟨0xffffdc00, 23⟩, ⟨0xffffde00, 23⟩, ⟨0xfffea000, 20⟩,
    ⟨0xffff8800, 22⟩, ⟨0xffff8c00, 22⟩, ⟨0xffff9000, 22⟩, ⟨0xffffe000, 23⟩, ⟨0xffff9400, 22⟩,
    ⟨0xffff9800, 22⟩, ⟨0xffffe200, 23⟩, ⟨0xfffff800, 26⟩, ⟨0xfffff840, 26⟩, ⟨0xfffeb000, 20⟩,
    ⟨0xfffe2000, 19⟩, ⟨0xffff9c00, 22⟩, ⟨0xffffe400, 23⟩, ⟨0xffffa000, 22⟩, ⟨0xfffff600, 25⟩,
    ⟨0xfffff880, 26⟩, ⟨0xfffff8c0, 26⟩, ⟨0xfffff900, 26⟩, ⟨0xfffffbc0, 27⟩, ⟨0xfffffbe0, 27⟩,
    ⟨0xfffff940, 26⟩, ⟨0xfffff100, 24⟩, ⟨0xfffff680, 25⟩, ⟨0xfffe4000, 19⟩, ⟨0xffff1800, 21⟩,
    ⟨0xfffff980, 26⟩, ⟨0xfffffc00, 27⟩, ⟨0xfffffc20, 27⟩, ⟨0xfffff9c0, 26⟩, ⟨0xfffffc40, 27⟩,
    ⟨0xfffff200, 24⟩, ⟨0xffff2000, 21⟩, ⟨0xffff2800, 21⟩, ⟨0xfffffa00, 26⟩, ⟨0xfffffa40, 26⟩,
    ⟨0xffffffd0, 28⟩, ⟨0xfffffc60, 27⟩, ⟨0xfffffc80, 27⟩, ⟨0xfffffca0, 27⟩, ⟨0xfffec000, 20⟩,
    ⟨0xfffff300, 24⟩, ⟨0xfffed000, 20⟩, ⟨0xffff3000, 21⟩, ⟨0xffffa400, 22⟩, ⟨0xffff3800, 21⟩,
    ⟨0xffff4000, 21⟩, ⟨0xffffe600, 23⟩, ⟨0xffffa800, 22⟩, ⟨0xffffac00, 22⟩, ⟨0xfffff700, 25⟩,
    ⟨0xfffff780, 25⟩, ⟨0xfffff400, 24⟩, ⟨0xfffff500, 24⟩, ⟨0xfffffa80, 26⟩, ⟨0xffffe800, 23⟩,
    ⟨0xfffffac0, 26⟩, ⟨0xfffffcc0, 27⟩, ⟨0xfffffb00, 26⟩, ⟨0xfffffb40, 26⟩, ⟨0xfffffce0, 27⟩,
    ⟨0xfffffd00, 27⟩, ⟨0xfffffd20, 27⟩, ⟨0xfffffd40, 27⟩, ⟨0xfffffd60, 27⟩, ⟨0xffffffe0, 28⟩,
    ⟨0xfffffd80, 27⟩, ⟨0xfffffda0, 27⟩, ⟨0xfffffdc0, 27⟩, ⟨0xfffffde0, 27⟩, ⟨0xfffffe00, 27⟩,
    ⟨0xfffffb80, 26⟩, ⟨0xfffffffc, 30⟩]

/-- `code_len_array`. -/
def codeLenArray : List Nat :=
  [5, 6, 7, 8, 10, 11, 12, 13, 14, 15, 19, 20, 21, 22, 23, 24, 25, 26, 27, 28, 30]

/-- `asso_values`. -/
@[irreducible] def assoValues : List Nat := [
    1, 267, 267, 267, 267, 267, 267, 267, 263, 267, 267, 267, 267, 267, 267, 267, 42, 267, 267,
    267, 267, 267, 267, 267, 262, 267, 267, 267, 267, 267, 267, 267, 86, 267, 267, 267, 267, 267,
    267, 267, 259, 267, 267, 267, 267, 267, 267, 267, 170, 267, 267, 267, 267, 267, 267, 267, 258,
    267, 267, 267, 267, 267, 267, 267, 22, 267, 267, 267, 267, 267, 267, 267, 255, 267, 267, 267,
    114, 267, 267, 267, 118, 267, 267, 267, 254, 267, 267, 267, 251, 267, 267, 267, 250, 267, 267,
    267, 75, 267, 267, 267, 247, 267, 267, 267, 246, 267, 267, 267, 243, 267, 267, 267, 159, 267,
    267, 267, 242, 267, 267, 267, 239, 267, 267, 267, 238, 267, 267, 267, 8, 267, 267, 267, 235,
    267, 267, 267, 234, 267, 267, 267, 231, 267, 267, 267, 144, 267, 267, 267, 230, 267, 267, 267,
    227, 267, 267, 267, 226, 267, 267, 267, 61, 267, 267, 267, 223, 267, 267, 267, 222, 267, 267,
    267, 219, 267, 267, 267, 153, 267, 111, 267, 218, 267, 110, 267, 215, 267, 214, 267, 211, 267,
    210, 267, 15, 267, 207, 267, 206, 267, 203, 267, 81, 267, 202, 267, 199, 267, 198, 267, 134,
    267, 195, 267, 194, 267, 191, 267, 69, 267, 190, 267, 187, 267, 186, 267, 54, 267, 183, 267,
    182, 267, 178, 267, 164, 267, 175, 104, 139, 84, 105, 72, 128, 67, 32, 51, 47, 35, 174, 93,
    29, 101, 95, 92, 38, 66, 4, 0]

/-- `wordlist`. -/
@[irreducible] def wordlist : List Int := [
    -1, 19, 176, 63, 48, 254, 92, 33, 28, 178, 124, 61, 8, 131, 40, 127, 147, 0, 69, 15, 224, 41,
    24, 230, 39, 115, 4, 208, 34, 22, 192, 60, 38, 215, 172, 120, 237, 200, 256, 211, 123, 88, 20,
    179, 201, 50, 222, 13, 236, 125, 121, 193, 225, 241, 249, 188, 93, 85, 17, 153, 214, 30, 198,
    35, 108, 12, 184, 245, 206, 90, 175, 91, 81, 159, 250, 26, 154, 43, 47, 6, 128, 252, 152, 36,
    73, 145, 21, 216, 247, 99, 2, 195, 244, 242, 234, 59, 218, 96, 44, 223, 255, 235, 202, 238,
    42, 142, 148, 203, 118, 210, 240, 138, 135, 221, 243, 132, 213, 219, 25, 133, 253, 32, 5, 205,
    212, -1, -1, 251, 10, 171, 94, 119, 18, 167, 220, 165, 64, 77, 16, 226, 144, 248, 113, -1, 29,
    187, 204, 100, 11, 162, -1, -1, 246, 31, 1, 62, 114, 14, 194, 27, 164, -1, 54, 7, 130, 239,
    126, 106, -1, 161, 23, 227, -1, 105, 3, 199, 9, 122, 107, 231, -1, 89, 207, 197, 191, 87, 86,
    183, 182, 84, 83, 180, 174, 82, 80, 168, 166, 79, 78, 158, 157, 76, 75, 155, 151, 74, 72, 150,
    149, 71, 70, 143, 141, 68, 67, 140, 139, 66, 58, 137, 233, 117, 112, 232, 228, 110, 109, 196,
    190, 104, 103, 189, 186, 102, 98, 185, 181, 95, 65, 173, 170, 57, 56, 169, 163, 55, 53, 160,
    156, 52, 51, 146, 136, 46, 45, 134, 129, 37, 116, 229, 217, 111, 101, 209, 177, 97, 49]

/-- `find`: the symbol the hash of the four bytes of `code` points to, or `-1`. -/
def find (code : Nat) : Int :=
  let key := assoValues.getD (code >>> 24 % 256) 0 + assoValues.getD (code >>> 16 % 256) 0 +
    assoValues.getD (code >>> 8 % 256) 0 + assoValues.getD (code % 256) 0
  if key ≤ 266 then wordlist.getD key (-1) else -1

/-- `huffman::decode`. -/
def decode (code : HuffmanCode) : Option Nat :=
  let index := find code.huffmanCode
  if index ≥ 0 ∧ huffmanTable[index.toNat]? = some code then some index.toNat else none

/-- `huffman::encode`. -/
def encode (value : Nat) : HuffmanCode := huffmanTable.getD value ⟨0, 0⟩

/-- `huffman::estimate_len`: the length of the encoded data in bits. -/
def estimateLen (data : Bytes) : Nat :=
  data.foldl (fun sum byte => sum + (encode byte.toNat).bitLength) 0

/-- The bits of a code, first bit first. -/
def HuffmanCode.bits (code : HuffmanCode) : List Bool :=
  Bits.ofNat code.bitLength (code.huffmanCode >>> (32 - code.bitLength))

/-- A code has as many bits as its entry says. -/
@[simp] theorem HuffmanCode.length_bits (code : HuffmanCode) :
    code.bits.length = code.bitLength := Bits.length_ofNat ..

/-- The tree with the code of every symbol. -/
def codeTree : PrefixCode.Tree Nat :=
  huffmanTable.zipIdx.foldl (fun tree entry => tree.insert entry.2 entry.1.bits) .empty

/-- The tree leads from the code of each symbol to the symbol. -/
theorem walk_of_mem : ∀ entry ∈ huffmanTable.zipIdx,
    codeTree.walk entry.1.bits = some entry.2 := by
  decide +kernel

private theorem find_of_mem :
    ∀ entry ∈ huffmanTable.zipIdx, find entry.1.huffmanCode = entry.2 := by
  decide +kernel

/-- Codes have 5 to 30 bits, left-aligned in 32, and a length the decoder tries. -/
theorem bounds_of_mem : ∀ code ∈ huffmanTable, 5 ≤ code.bitLength ∧ code.bitLength ≤ 30 ∧
    code.huffmanCode < 2 ^ 32 ∧ code.huffmanCode % 2 ^ (32 - code.bitLength) = 0 ∧
    code.bitLength ∈ codeLenArray := by
  decide +kernel

/-- The bytes and EOS. -/
theorem length_huffmanTable : huffmanTable.length = 257 := by decide +kernel

/-- A symbol's code is the table entry at its position. -/
theorem encode_getElem? {value : Nat} (bound : value < 257) :
    huffmanTable[value]? = some (encode value) := by
  have inside : value < huffmanTable.length := by rw [length_huffmanTable]; exact bound
  rw [encode, List.getD_eq_getElem?_getD, List.getElem?_eq_getElem inside, Option.getD_some]

/-- The entry of a symbol, with its index. -/
theorem encode_mem_zipIdx {value : Nat} (bound : value < 257) :
    (encode value, value) ∈ huffmanTable.zipIdx :=
  List.mem_zipIdx_iff_getElem?.mpr (encode_getElem? bound)

/-- The code of a symbol is in the table. -/
theorem encode_mem {value : Nat} (bound : value < 257) : encode value ∈ huffmanTable :=
  List.mem_of_getElem? (encode_getElem? bound)

/-- A table entry, read as 32 bits, is its code followed by zeros. -/
theorem ofNat_of_mem {code : HuffmanCode} (member : code ∈ huffmanTable) :
    Bits.ofNat 32 code.huffmanCode =
      code.bits ++ List.replicate (32 - code.bitLength) false := by
  obtain ⟨-, upper, -, aligned, -⟩ := bounds_of_mem code member
  have split := Bits.ofNat_add code.bitLength (32 - code.bitLength) code.huffmanCode
  rw [show code.bitLength + (32 - code.bitLength) = 32 by omega] at split
  rw [split, ← Bits.ofNat_mod (32 - code.bitLength) (32 - code.bitLength) _ le_rfl, aligned,
    Bits.ofNat_zero]
  rfl

private theorem codeTree_complete : codeTree.complete = true ∧ codeTree.depth = 30 := by
  decide +kernel

/-- Any 30 bits start with the code of a symbol. -/
theorem exists_code {bits : List Bool} (long : 30 ≤ bits.length) :
    ∃ value < 257, ∃ rest, bits = (encode value).bits ++ rest := by
  obtain ⟨full, depth⟩ := codeTree_complete
  obtain ⟨word, rest, symbol, split, reached⟩ :=
    PrefixCode.Tree.exists_word full (by rw [depth]; exact long)
  rcases PrefixCode.Tree.walk_foldl_insert reached with ⟨entry, member, rfl, rfl⟩ | none
  · have found := List.mem_zipIdx_iff_getElem?.mp member
    have inside := (List.getElem?_eq_some_iff.mp found).1
    rw [length_huffmanTable] at inside
    rw [encode_getElem? inside, Option.some.injEq] at found
    exact ⟨entry.2, inside, rest, by rw [found]; exact split⟩
  · cases none

/-- Every symbol is found from its own code. -/
theorem decode_encode {value : Nat} (bound : value < 257) :
    decode (encode value) = some value := by
  have found : find (encode value).huffmanCode = value :=
    find_of_mem (encode value, value) (encode_mem_zipIdx bound)
  simp only [decode, found, Int.toNat_natCast, encode_getElem? bound, and_true, ge_iff_le,
    Int.natCast_nonneg, ↓reduceIte]

/-- Only a symbol's own code is decoded to it. -/
theorem encode_of_decode {code : HuffmanCode} {value : Nat} (found : decode code = some value) :
    value < 257 ∧ encode value = code := by
  unfold decode at found
  simp only [Option.ite_none_right_eq_some, Option.some.injEq] at found
  obtain ⟨⟨-, entry⟩, rfl⟩ := found
  have inside := (List.getElem?_eq_some_iff.mp entry).1
  rw [length_huffmanTable] at inside
  rw [encode_getElem? inside] at entry
  exact ⟨inside, Option.some.inj entry⟩

/-- Of the first bits of a symbol's code, only the whole code is decoded, and
to that symbol. -/
theorem decode_take {value len code : Nat} (bound : value < 257)
    (lenBound : len ≤ (encode value).bitLength)
    (taken : Bits.ofNat 32 code =
      (encode value).bits.take len ++ List.replicate (32 - len) false)
    (small : code < 2 ^ 32) :
    decode ⟨code, len⟩ = if len = (encode value).bitLength then some value else none := by
  by_cases whole : len = (encode value).bitLength
  · rw [if_pos whole]
    have member := encode_mem bound
    have same : code = (encode value).huffmanCode := by
      apply Bits.ofNat_injective small (bounds_of_mem _ member).2.2.1
      rw [taken, ofNat_of_mem member, whole, ← HuffmanCode.length_bits, List.take_length]
    have entry : (⟨code, len⟩ : HuffmanCode) = encode value := by rw [same, whole]
    rw [entry]
    exact decode_encode bound
  · rw [if_neg whole]
    cases found : decode ⟨code, len⟩ with
    | none => rfl
    | some other =>
        exfalso
        obtain ⟨otherBound, entry⟩ := encode_of_decode found
        have read := ofNat_of_mem (encode_mem otherBound)
        rw [entry, taken] at read
        have shorter : (encode value).bits.take len = (encode other).bits := by
          rw [entry]
          exact (List.append_inj read (by
            rw [List.length_take, HuffmanCode.length_bits, HuffmanCode.length_bits]
            exact Nat.min_eq_left lenBound)).1
        obtain ⟨equal, -⟩ := PrefixCode.eq_of_isPrefix
          (walk_of_mem _ (encode_mem_zipIdx otherBound)) (walk_of_mem _ (encode_mem_zipIdx bound))
          (shorter ▸ List.take_prefix len _)
        have lengths := congrArg List.length equal
        rw [HuffmanCode.length_bits, HuffmanCode.length_bits, entry] at lengths
        exact whole lengths

/-- The code of a byte has 5 to 30 bits. -/
theorem encode_bounds (byte : UInt8) :
    5 ≤ (encode byte.toNat).bitLength ∧ (encode byte.toNat).bitLength ≤ 30 := by
  have bounds := bounds_of_mem _ (encode_mem (Nat.lt_succ_of_lt byte.toNat_lt))
  exact ⟨bounds.1, bounds.2.1⟩

/-- No code is made of ones only in its first seven bits, so padding is never
mistaken for a code that fits in it. -/
theorem false_mem_bits : ∀ code ∈ huffmanTable, code.bitLength < 8 → false ∈ code.bits := by
  decide +kernel

/-- The bits of an encoded string, without the padding. -/
def codes (data : Bytes) : List Bool := data.flatMap fun byte => (encode byte.toNat).bits

/-- Nothing is encoded as nothing. -/
@[simp] theorem codes_nil : codes [] = [] := rfl

/-- The codes follow each other. -/
@[simp] theorem codes_cons (byte : UInt8) (data : Bytes) :
    codes (byte :: data) = (encode byte.toNat).bits ++ codes data := rfl

/-- The encoded length is the sum of the code lengths. -/
theorem estimateLen_eq (data : Bytes) :
    estimateLen data = (data.map fun byte => (encode byte.toNat).bitLength).sum := by
  have shift : ∀ start, data.foldl (fun sum byte => sum + (encode byte.toNat).bitLength) start =
      start + (data.map fun byte => (encode byte.toNat).bitLength).sum := by
    induction data with
    | nil => intro start; rfl
    | cons byte data ih =>
        intro start
        rw [List.foldl_cons, ih, List.map_cons, List.sum_cons, Nat.add_assoc]
  rw [estimateLen, shift, Nat.zero_add]

/-- The estimate is between 5 and 30 bits for each byte. -/
theorem estimateLen_bounds (data : Bytes) :
    5 * data.length ≤ estimateLen data ∧ estimateLen data ≤ 30 * data.length := by
  rw [estimateLen_eq]
  induction data with
  | nil => exact ⟨le_rfl, le_rfl⟩
  | cons byte data ih =>
      obtain ⟨lower, upper⟩ := encode_bounds byte
      rw [List.map_cons, List.sum_cons, List.length_cons]
      omega

/-- The estimate is the number of bits. -/
theorem length_codes (data : Bytes) : (codes data).length = estimateLen data := by
  rw [estimateLen_eq]
  induction data with
  | nil => rfl
  | cons byte data ih =>
      rw [codes_cons, List.length_append, ih, HuffmanCode.length_bits, List.map_cons,
        List.sum_cons]

end H2pp.Hpack.Huffman

import H2pp.Error

/-! # Spans of bytes

A span points into memory that goes on before and after it. Some readers of the
client go beyond their span, so the model of a span keeps that memory.
-/

namespace H2pp.Utils

/-- A `std::span<const uint8_t>`: memory addressed from the first byte of the
span, and the number of its bytes. -/
structure Span where
  mem : Int → UInt8
  size : Nat

namespace Span

/-- The bytes of the span. -/
def bytes (span : Span) : Bytes := (List.range span.size).map fun index : Nat => span.mem index

/-- `subspan(offset)`. -/
def subspan (span : Span) (offset : Nat) : Span :=
  ⟨fun index => span.mem (index + offset), span.size - offset⟩

/-- `subspan(0, count)`. -/
def first (span : Span) (count : Nat) : Span := ⟨span.mem, count⟩

/-- A span over `bytes` with `around` in the memory before and after it. -/
def ofBytes (around : Int → UInt8) (bytes : Bytes) : Span where
  mem := fun index => if 0 ≤ index then bytes.getD index.toNat (around index) else around index
  size := bytes.length

/-- A span has as many bytes as its size says. -/
@[simp] theorem length_bytes (span : Span) : span.bytes.length = span.size := by
  rw [bytes, List.length_map, List.length_range]

/-- The bytes of a span are those of the memory. -/
theorem bytes_getElem? (span : Span) (index : Nat) (inside : index < span.size) :
    span.bytes[index]? = some (span.mem index) := by
  rw [bytes, List.getElem?_map, List.getElem?_range inside, Option.map_some]

/-- The first byte. -/
theorem front_of_bytes {span : Span} {front : UInt8} {rest : Bytes}
    (content : span.bytes = front :: rest) : span.mem 0 = front := by
  have inside : 0 < span.size := by
    rw [← length_bytes, content]
    exact Nat.succ_pos _
  have head := bytes_getElem? span 0 inside
  rw [content] at head
  exact (Option.some.inj head).symm

/-- The span over some bytes has these bytes. -/
@[simp] theorem bytes_ofBytes (around : Int → UInt8) (content : Bytes) :
    (ofBytes around content).bytes = content := by
  apply List.ext_getElem?
  intro index
  by_cases inside : index < content.length
  · rw [bytes_getElem? _ _ inside, List.getElem?_eq_getElem inside]
    simp only [ofBytes, Int.natCast_nonneg, ↓reduceIte, Int.toNat_natCast,
      List.getD_eq_getElem?_getD, List.getElem?_eq_getElem inside, Option.getD_some]
  · rw [List.getElem?_eq_none (by rw [length_bytes]; exact Nat.not_lt.mp inside),
      List.getElem?_eq_none (Nat.not_lt.mp inside)]

/-- A subspan starts further on. -/
@[simp] theorem bytes_subspan (span : Span) (offset : Nat) :
    (span.subspan offset).bytes = span.bytes.drop offset := by
  apply List.ext_getElem?
  intro index
  rw [List.getElem?_drop]
  by_cases inside : offset + index < span.size
  · rw [bytes_getElem? _ _ (by change index < span.size - offset; omega),
      bytes_getElem? _ _ inside]
    change some (span.mem ((index : Int) + offset)) = some (span.mem ((offset + index : Nat) : Int))
    rw [Int.add_comm, ← Int.natCast_add]
  · rw [List.getElem?_eq_none (by rw [length_bytes]; change span.size - offset ≤ index; omega),
      List.getElem?_eq_none (by rw [length_bytes]; omega)]

/-- A subspan from the start is the span. -/
@[simp] theorem subspan_zero (span : Span) : span.subspan 0 = span := by
  simp only [subspan, Int.natCast_zero, Int.add_zero, Nat.sub_zero]

/-- Offsets add up. -/
@[simp] theorem subspan_subspan (span : Span) (first second : Nat) :
    (span.subspan first).subspan second = span.subspan (first + second) := by
  have same : ∀ index : Int, index + second + first = index + (first + second : Nat) := by
    intro index
    omega
  simp only [subspan, same, Nat.sub_sub]

/-- `first` restricts the size and not the memory. -/
@[simp] theorem mem_first (span : Span) (count : Nat) : (span.first count).mem = span.mem := rfl

/-- The first bytes of a span. -/
theorem bytes_first (span : Span) (count : Nat) (inside : count ≤ span.size) :
    (span.first count).bytes = span.bytes.take count := by
  rw [bytes, bytes, ← List.map_take, List.take_range, Nat.min_eq_left inside]
  rfl

/-- The memory of the span from `offset` on begins with `content`. -/
def Holds (span : Span) (offset : Nat) (content : Bytes) : Prop :=
  ∀ index byte, content[index]? = some byte → span.mem (offset + index : Nat) = byte

/-- Content is stored part by part. -/
theorem holds_append {span : Span} {offset : Nat} {first second : Bytes} :
    span.Holds offset (first ++ second) ↔
      span.Holds offset first ∧ span.Holds (offset + first.length) second := by
  constructor
  · intro both
    refine ⟨fun index byte found => both index byte ?_, fun index byte found => ?_⟩
    · obtain ⟨inside, rfl⟩ := List.getElem?_eq_some_iff.mp found
      rw [List.getElem?_append_left inside, found]
    · rw [Nat.add_assoc]
      refine both _ byte ?_
      rw [List.getElem?_append_right (Nat.le_add_right _ _), Nat.add_sub_cancel_left, found]
  · rintro ⟨left, right⟩ index byte found
    rcases Nat.lt_or_ge index first.length with inside | behind
    · rw [List.getElem?_append_left inside] at found
      exact left index byte found
    · rw [List.getElem?_append_right behind] at found
      have there := right _ byte found
      rwa [Nat.add_assoc, Nat.add_sub_cancel' behind] at there

/-- The span over some bytes holds them. -/
theorem holds_ofBytes (around : Int → UInt8) (content : Bytes) :
    (ofBytes around content).Holds 0 content := by
  intro index byte found
  rw [Nat.zero_add]
  simp only [ofBytes, Int.natCast_nonneg, ↓reduceIte, Int.toNat_natCast,
    List.getD_eq_getElem?_getD, found, Option.getD_some]

/-- What the memory holds are the bytes of a span over it. -/
theorem Holds.bytes_eq {span : Span} {offset : Nat} {content : Bytes}
    (held : span.Holds offset content) :
    { span.subspan offset with size := content.length }.bytes = content := by
  apply List.ext_getElem?
  intro index
  rcases Nat.lt_or_ge index content.length with inside | outside
  · rw [bytes_getElem? _ _ inside, List.getElem?_eq_getElem inside]
    have there := held index _ (List.getElem?_eq_getElem inside)
    rw [Nat.add_comm, Int.natCast_add] at there
    exact congrArg some there
  · rw [List.getElem?_eq_none (by rwa [length_bytes]), List.getElem?_eq_none outside]

end Span

end H2pp.Utils

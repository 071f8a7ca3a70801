import H2pp.Lib.Outcome
import H2pp.Utils.Streambuf

/-! # The stream of buffers in memory

`utils/buffer.h` and `utils/streambuf.cpp` once more, one level below: a buffer owns an
array whose bytes have no value before they are written, the array comes from a heap that
may refuse it, `memcpy` and `commit` are separate calls, and sizes are 64-bit. A copy
beyond a buffer or beyond its source is undefined. It does not happen, and what can be
seen of these buffers is what the buffers of the other modules hold.
-/

namespace H2pp.Utils

open Outcome

/-- The arrays that `new uint8_t[size]` grants. None has more than `PTRDIFF_MAX` bytes. -/
structure Heap where
  grants : Nat → Bool
  bounded : ∀ size, grants size → size < 2 ^ 63

/-- The heap that refuses no array of a possible size. -/
def Heap.unlimited : Heap := ⟨fun size => decide (size < 2 ^ 63), fun _ => of_decide_eq_true⟩

/-- How a call on a stream ends when it does not return. -/
inductive StreamFailure
  | badAlloc (size : Nat)
  | undefinedBehaviour
  /-- the loop goes on after the rounds it was given -/
  | unfinished
  deriving DecidableEq, Repr

/-- `memcpy` of `bytes` to `memory + offset`. -/
def copyInto (memory : List (Option UInt8)) (offset : Nat) (bytes : Bytes) :
    List (Option UInt8) :=
  memory.take offset ++ (bytes.map some ++ memory.drop (offset + bytes.length))

private theorem length_copyInto {memory : List (Option UInt8)} {offset : Nat} {bytes : Bytes}
    (fits : offset + bytes.length ≤ memory.length) :
    (copyInto memory offset bytes).length = memory.length := by
  simp only [copyInto, List.length_append, List.length_take, List.length_map, List.length_drop]
  omega

/-- The bytes copied follow those that were there before. -/
theorem take_copyInto {memory : List (Option UInt8)} {offset : Nat}
    (inside : offset ≤ memory.length) (bytes : Bytes) :
    (copyInto memory offset bytes).take (offset + bytes.length) =
      memory.take offset ++ bytes.map some := by
  rw [copyInto, ← List.append_assoc]
  refine List.take_left' ?_
  rw [List.length_append, List.length_take_of_le inside, List.length_map]

/-- `utils::buffer`: the first `offset` bytes of `memory` are committed. A byte is `none`
until it is written. -/
structure MemoryBuffer where
  offset : Nat
  memory : List (Option UInt8)
  inside : offset ≤ memory.length
  addressable : memory.length < 2 ^ 63

namespace MemoryBuffer

/-- `max_size()`. -/
def maxSize (buffer : MemoryBuffer) : Nat := buffer.memory.length

/-- `buffer(size)`. -/
def create (heap : Heap) (size : Nat) : Except StreamFailure MemoryBuffer :=
  if granted : heap.grants size then
    .ok
      { offset := 0
        memory := List.replicate size none
        inside := Nat.zero_le _
        addressable := by
          rw [List.length_replicate]
          exact heap.bounded size granted }
  else .error (.badAlloc size)

/-- `prepare().size_bytes()`. -/
def prepareSize (buffer : MemoryBuffer) : Nat := buffer.maxSize - buffer.offset

/-- `memcpy` of `bytes` to `prepare().data()`. -/
def write (buffer : MemoryBuffer) (bytes : Bytes) : Except StreamFailure MemoryBuffer :=
  if room : bytes.length ≤ buffer.prepareSize then
    have same : (copyInto buffer.memory buffer.offset bytes).length = buffer.memory.length :=
      length_copyInto (Nat.add_le_of_le_sub' buffer.inside room)
    .ok
      { offset := buffer.offset
        memory := copyInto buffer.memory buffer.offset bytes
        inside := by
          rw [same]
          exact buffer.inside
        addressable := by
          rw [same]
          exact buffer.addressable }
  else .error .undefinedBehaviour

/-- `commit(count)`. -/
def commit (buffer : MemoryBuffer) (count : Nat) : MemoryBuffer :=
  { buffer with
    offset := buffer.offset + min buffer.prepareSize count
    inside := by
      have inside := buffer.inside
      unfold prepareSize maxSize
      omega }

/-- `data_view()`. -/
def dataView (buffer : MemoryBuffer) : List (Option UInt8) := buffer.memory.take buffer.offset

/-- What a consumer sees of a buffer: its size and its data. -/
def seen (buffer : MemoryBuffer) : Nat × List (Option UInt8) := (buffer.maxSize, buffer.dataView)

end MemoryBuffer

/-- `src.data() + offset`, read by a `memcpy` of `n` bytes. -/
def readSpan (src : Bytes) (offset n : Nat) : Except StreamFailure Bytes :=
  if offset + n ≤ src.length then .ok ((src.drop offset).take n) else .error .undefinedBehaviour

/-- `utils::streambuf`, front buffer first. -/
structure MemoryStreambuf where
  buffers : List MemoryBuffer

namespace MemoryStreambuf

/-- `streambuf()`. -/
def create : MemoryStreambuf := ⟨[]⟩

/-- `check_size(sz)`. -/
def checkSize (heap : Heap) (buffers : List MemoryBuffer) (sz : Nat) :
    Except StreamFailure (List MemoryBuffer) :=
  match buffers.getLast? with
  | none => do
      let buffer ← MemoryBuffer.create heap (max (alignSize sz) 64)
      .ok (buffers ++ [buffer])
  | some lastBuffer =>
      if lastBuffer.prepareSize = 0 then do
        let nextSize := min (lastBuffer.maxSize * 2 % 2 ^ 64) 4096
        let buffer ← MemoryBuffer.create heap (max (alignSize sz) nextSize)
        .ok (buffers ++ [buffer])
      else .ok buffers

/-- One round of the loop of `push_back`: the buffers, `count` and `offset` after it. -/
def copyRound (heap : Heap) (src : Bytes) (buffers : List MemoryBuffer) (count offset : Nat) :
    Except StreamFailure (List MemoryBuffer × Nat × Nat) := do
  let buffers ← checkSize heap buffers count
  match buffers.getLast? with
  | none => .error .undefinedBehaviour
  | some back =>
      let n := min count back.prepareSize
      let bytes ← readSpan src offset n
      let back ← back.write bytes
      .ok (buffers.dropLast ++ [back.commit n], count - n, offset + n)

/-- The loop of `push_back`, cut off after `fuel` rounds. -/
def copyLoop (heap : Heap) (src : Bytes) :
    Nat → List MemoryBuffer → Nat → Nat → Except StreamFailure (List MemoryBuffer)
  | 0, buffers, count, _ => if count > 0 then .error .unfinished else .ok buffers
  | fuel + 1, buffers, count, offset =>
      if count > 0 then do
        let (buffers, count, offset) ← copyRound heap src buffers count offset
        copyLoop heap src fuel buffers count offset
      else .ok buffers

/-- `push_back(src)`, with one round for each byte. -/
def pushBack (heap : Heap) (stream : MemoryStreambuf) (src : Bytes) :
    Except StreamFailure MemoryStreambuf := do
  let buffers ← copyLoop heap src src.length stream.buffers src.length 0
  .ok ⟨buffers⟩

/-- `flush()`: the buffers are swapped with an empty queue. -/
def flush (stream : MemoryStreambuf) : List MemoryBuffer × MemoryStreambuf :=
  let ret : List MemoryBuffer := []
  (stream.buffers, ⟨ret⟩)

/-- A sequence of calls of `push_back`. -/
def pushAll (heap : Heap) (stream : MemoryStreambuf) (spans : List Bytes) :
    Except StreamFailure MemoryStreambuf :=
  spans.foldlM (pushBack heap) stream

end MemoryStreambuf

/-! ## Buffers -/

/-- What a consumer sees of a buffer of the other modules. -/
def Buffer.seen (buffer : Buffer) : Nat × List (Option UInt8) :=
  (buffer.maxSize, buffer.data.map some)

namespace MemoryBuffer

variable {memory : MemoryBuffer} {buffer : Buffer}

private theorem maxSize_eq (same : memory.seen = buffer.seen) : memory.maxSize = buffer.maxSize :=
  congrArg Prod.fst same

private theorem dataView_eq (same : memory.seen = buffer.seen) :
    memory.dataView = buffer.data.map some :=
  congrArg Prod.snd same

private theorem length_dataView (memory : MemoryBuffer) : memory.dataView.length = memory.offset :=
  List.length_take_of_le memory.inside

private theorem prepareSize_eq (same : memory.seen = buffer.seen) :
    memory.prepareSize = buffer.prepareSize := by
  rw [prepareSize, Buffer.prepareSize, ← length_dataView, maxSize_eq same, dataView_eq same,
    List.length_map]

/-- A new buffer looks like a new buffer, unless the heap refuses its array. -/
theorem create_ends (heap : Heap) (size : Nat) :
    Ends (create heap size) (fun memory => memory.seen = (Buffer.create size).seen)
      (fun failure => heap.grants size = false ∧ failure = .badAlloc size) := by
  unfold create
  split
  · change (_, _) = (_, _)
    rw [maxSize, List.length_replicate]
    rfl
  · next refused => exact ⟨Bool.eq_false_iff.mpr refused, rfl⟩

/-- Bytes that fit are written behind the data and then belong to it. -/
theorem write_commit (same : memory.seen = buffer.seen) (bytes : Bytes)
    (room : bytes.length ≤ buffer.prepareSize) :
    ∃ written, memory.write bytes = .ok written ∧
      (written.commit bytes.length).seen = (buffer.commit bytes).seen := by
  have fits : bytes.length ≤ memory.prepareSize := by rwa [prepareSize_eq same]
  refine ⟨_, dif_pos fits, ?_⟩
  unfold prepareSize maxSize at fits
  have size := length_copyInto (Nat.add_le_of_le_sub' memory.inside fits)
  simp only [seen, Buffer.seen, maxSize, dataView, commit, prepareSize, Buffer.commit_data room,
    Buffer.commit_maxSize, size, Nat.min_eq_right fits, Prod.mk.injEq]
  constructor
  · exact maxSize_eq same
  · rw [take_copyInto memory.inside, List.map_append, ← dataView_eq same]
    rfl

end MemoryBuffer

/-! ## The copy loop -/

private theorem alignSize_le (size : Nat) : alignSize size ≤ size + 4095 := by
  have bound : ∀ order, makeMask 64 order ≤ 4095 → ceilOrder2 size order ≤ size + 4095 := by
    intro order mask
    calc ceilOrder2 size order
      _ ≤ (size + makeMask 64 order) % 2 ^ 64 := Nat.and_le_left
      _ ≤ size + makeMask 64 order := Nat.mod_le _ _
      _ ≤ size + 4095 := Nat.add_le_add_left mask _
  unfold alignSize
  split
  · exact bound 12 (by decide)
  · exact bound 6 (by decide)

/-- The heap has refused an array that is asked for when `count` bytes are to be copied. -/
def Heap.Refuses (heap : Heap) (count : Nat) (failure : StreamFailure) : Prop :=
  ∃ size ≤ max 4096 (count + 4095), heap.grants size = false ∧ failure = .badAlloc size

private theorem Heap.Refuses.mono {heap : Heap} {count more : Nat} (le : count ≤ more)
    {failure : StreamFailure} (refused : heap.Refuses count failure) :
    heap.Refuses more failure := by
  obtain ⟨size, bound, rest⟩ := refused
  exact ⟨size, by omega, rest⟩

namespace MemoryStreambuf

variable {heap : Heap} {memory : List MemoryBuffer} {buffers : List Buffer}

/-- A consumer sees the same of both lists of buffers. -/
def Alike (memory : List MemoryBuffer) (buffers : List Buffer) : Prop :=
  memory.map MemoryBuffer.seen = buffers.map Buffer.seen

private theorem alike_concat {initial : List MemoryBuffer} {last : MemoryBuffer}
    {front : List Buffer}
    {back : Buffer} (before : Alike initial front) (same : last.seen = back.seen) :
    Alike (initial ++ [last]) (front ++ [back]) := by
  unfold Alike at before ⊢
  rw [List.map_append, List.map_append, before, List.map_singleton, List.map_singleton, same]

/-- Lists that look alike are split alike. -/
theorem Alike.getLast {front : List Buffer} {back : Buffer}
    (alike : Alike memory (front ++ [back])) :
    ∃ initial last, memory = initial ++ [last] ∧ Alike initial front ∧ last.seen = back.seen := by
  rw [Alike, List.map_append, List.map_singleton] at alike
  obtain ⟨initial, tail, split, before, after⟩ := List.map_eq_append_iff.mp alike
  obtain ⟨last, rfl, same⟩ := List.map_eq_singleton_iff.mp after
  exact ⟨initial, last, split, before, same⟩

/-- A new buffer behind lists that look alike. -/
theorem push_create (alike : Alike memory buffers) {count size : Nat}
    (bound : size ≤ max 4096 (count + 4095)) :
    Ends (MemoryBuffer.create heap size >>= fun buffer => .ok (memory ++ [buffer]))
      (fun grown => Alike grown (buffers ++ [Buffer.create size])) (heap.Refuses count) :=
  ((MemoryBuffer.create_ends heap size).imp_error fun _ refused => ⟨size, bound, refused⟩).bind
    fun _ same => alike_concat alike same

private theorem checkSize_ends (alike : Alike memory buffers) (sz : Nat) :
    Ends (checkSize heap memory sz) (fun grown => Alike grown (Streambuf.checkSize buffers sz))
      (heap.Refuses sz) := by
  have aligned := alignSize_le sz
  rcases List.eq_nil_or_concat buffers with none | ⟨front, back, split⟩
  · subst none
    have none : memory = [] := List.map_eq_nil_iff.mp alike
    subst none
    exact push_create alike (by omega)
  · rw [List.concat_eq_append] at split
    subst split
    obtain ⟨initial, last, rfl, -, same⟩ := alike.getLast
    have small := last.addressable
    -- a granted array is so small that doubling its size does not wrap
    have double : last.maxSize * 2 % 2 ^ 64 = back.maxSize * 2 := by
      rw [← MemoryBuffer.maxSize_eq same]
      exact Nat.mod_eq_of_lt (by unfold MemoryBuffer.maxSize; omega)
    simp only [checkSize, Streambuf.checkSize, List.getLast?_concat,
      MemoryBuffer.prepareSize_eq same, double]
    by_cases full : back.prepareSize = 0
    · simp only [full, ↓reduceIte]
      exact push_create alike (by omega)
    · simp only [full, ↓reduceIte]
      exact alike

/-- A round copies the next bytes of the source, as many as the last buffer has room for. -/
theorem copyRound_ends (alike : Alike memory buffers) {src : Bytes} {count offset : Nat}
    (rest : offset + count = src.length) {front : List Buffer} {back : Buffer}
    (grown : Streambuf.checkSize buffers count = front ++ [back]) :
    Ends (copyRound heap src memory count offset)
      (fun next =>
        Alike next.1
            (front ++ [back.commit ((src.drop offset).take (min count back.prepareSize))]) ∧
          next.2 = (count - min count back.prepareSize, offset + min count back.prepareSize))
      (heap.Refuses count) := by
  refine (checkSize_ends alike count).bind fun after alike => ?_
  rw [grown] at alike
  obtain ⟨initial, last, rfl, before, same⟩ := alike.getLast
  have length : ((src.drop offset).take (min count back.prepareSize)).length =
      min count back.prepareSize := by
    rw [List.length_take, List.length_drop]
    omega
  obtain ⟨written, wrote, committed⟩ := MemoryBuffer.write_commit same
    ((src.drop offset).take (min count back.prepareSize)) (by omega)
  have read : readSpan src offset (min count back.prepareSize) =
      .ok ((src.drop offset).take (min count back.prepareSize)) := if_pos (by omega)
  rw [length] at committed
  simp only [List.getLast?_concat, List.dropLast_concat, MemoryBuffer.prepareSize_eq same, read,
    ok_bind, wrote]
  exact ⟨alike_concat before committed, rfl⟩

/-- The loop ends within one round for each byte, and does what the loop of the other
modules does. -/
theorem copyLoop_ends (src : Bytes) (fuel : Nat) (alike : Alike memory buffers)
    (sized : Streambuf.Sized buffers) {count offset : Nat} (rest : offset + count = src.length)
    (enough : count ≤ fuel) :
    Ends (copyLoop heap src fuel memory count offset)
      (fun final => Alike final (Streambuf.pushBackLoop fuel buffers (src.drop offset)))
      (heap.Refuses count) := by
  have length : (src.drop offset).length = count := by
    rw [List.length_drop]
    omega
  induction fuel generalizing memory buffers count offset with
  | zero =>
      rw [copyLoop, if_neg (by omega)]
      exact alike
  | succ fuel ih =>
      unfold copyLoop Streambuf.pushBackLoop
      rw [length]
      by_cases some : count > 0
      · obtain ⟨front, back, grown, ready⟩ := Streambuf.checkSize_spec buffers count sized
        have room := ready.room
        simp only [some, ↓reduceIte, grown, List.getLast?_concat, List.dropLast_concat,
          List.drop_drop]
        refine (copyRound_ends alike rest grown).bind ?_
        rintro ⟨next, _, _⟩ ⟨alike, ⟨⟩⟩
        dsimp only
        refine (ih alike ?_ (by omega) (by omega) (by rw [List.length_drop]; omega)).imp_error
          fun _ refused => refused.mono (Nat.sub_le _ _)
        exact ready.sized_commit _
      · simp only [some, ↓reduceIte]
        exact alike

/-- `push_back` does what that of the other modules does, unless an array is refused. -/
theorem pushBack_ends {memory : MemoryStreambuf} {stream : Streambuf}
    (alike : Alike memory.buffers stream.buffers) (src : Bytes) :
    Ends (pushBack heap memory src)
      (fun next => Alike next.buffers (stream.pushBack src).buffers)
      (heap.Refuses src.length) :=
  (copyLoop_ends src src.length alike stream.sized (Nat.zero_add _) le_rfl).bind
    fun _ alike => alike

/-- So does every sequence of calls. -/
theorem pushAll_ends {memory : MemoryStreambuf} {stream : Streambuf}
    (alike : Alike memory.buffers stream.buffers) (spans : List Bytes) :
    Ends (memory.pushAll heap spans)
      (fun final => Alike final.buffers (spans.foldl Streambuf.pushBack stream).buffers)
      (fun failure => ∃ span ∈ spans, heap.Refuses span.length failure) :=
  Ends.foldlM (fun (memory : MemoryStreambuf) (stream : Streambuf) =>
      Alike memory.buffers stream.buffers)
    (fun _ _ span alike => pushBack_ends alike span) alike spans

private theorem alike_create : Alike create.buffers Streambuf.empty.buffers := rfl

/-! ## Whole streams -/

private theorem Alike.dataView (alike : Alike memory buffers) :
    memory.flatMap MemoryBuffer.dataView = (buffers.flatMap Buffer.data).map some := by
  have views := congrArg (List.flatMap Prod.snd) alike
  rw [List.flatMap_map, List.flatMap_map] at views
  rw [List.map_flatMap]
  exact views

private theorem Alike.dropLast (alike : Alike memory buffers) :
    Alike memory.dropLast buffers.dropLast := by
  unfold Alike at alike ⊢
  rw [List.map_dropLast, List.map_dropLast, alike]

private theorem Alike.exists_mem (alike : Alike memory buffers) {own : MemoryBuffer}
    (member : own ∈ memory) : ∃ buffer ∈ buffers, own.seen = buffer.seen := by
  have image : own.seen ∈ buffers.map Buffer.seen := alike ▸ List.mem_map_of_mem member
  obtain ⟨buffer, inside, same⟩ := List.mem_map.mp image
  exact ⟨buffer, inside, same.symm⟩

/-- Every buffer but the last is full and none is empty, as far as a consumer sees. -/
theorem Alike.packed (alike : Alike memory buffers) (packed : Streambuf.Packed buffers) :
    (∀ buffer ∈ memory.dropLast, buffer.dataView.length = buffer.maxSize) ∧
      ∀ buffer ∈ memory, buffer.dataView ≠ [] := by
  constructor
  · intro own member
    obtain ⟨buffer, inside, same⟩ := alike.dropLast.exists_mem member
    have full := packed.1 buffer inside
    have fits := buffer.fits
    unfold Buffer.prepareSize at full
    rw [MemoryBuffer.dataView_eq same, MemoryBuffer.maxSize_eq same, List.length_map]
    omega
  · intro own member
    obtain ⟨buffer, inside, same⟩ := alike.exists_mem member
    rw [MemoryBuffer.dataView_eq same, ne_eq, List.map_eq_nil_iff]
    exact packed.2 buffer inside

/-- **The stream buffer loses nothing.** After any calls of `push_back` the buffers that
`flush` returns hold the bytes pushed and nothing else, all but the last are full, none is
empty, and the stream is as new. The calls return unless the heap refuses an array for
one of the spans. -/
theorem flush_lossless (heap : Heap) (spans : List Bytes) :
    (∃ stream, create.pushAll heap spans = .ok stream ∧
      stream.flush.1.flatMap MemoryBuffer.dataView = spans.flatten.map some ∧
      (∀ buffer ∈ stream.flush.1.dropLast, buffer.dataView.length = buffer.maxSize) ∧
      (∀ buffer ∈ stream.flush.1, buffer.dataView ≠ []) ∧
      stream.flush.2 = create) ∨
    ∃ span ∈ spans, ∃ size ≤ max 4096 (span.length + 4095),
      heap.grants size = false ∧ create.pushAll heap spans = .error (.badAlloc size) := by
  have ends := @pushAll_ends heap _ _ alike_create spans
  cases ran : create.pushAll heap spans with
  | error failure =>
      rw [ran] at ends
      obtain ⟨span, member, size, bound, refused, rfl⟩ := ends
      exact .inr ⟨span, member, size, bound, refused, rfl⟩
  | ok stream =>
      rw [ran] at ends
      obtain ⟨packed, contents⟩ := Streambuf.foldl_pushBack Streambuf.packed_empty spans
      obtain ⟨full, some⟩ := Alike.packed ends packed
      refine .inl ⟨stream, rfl, ?_, full, some, rfl⟩
      calc stream.flush.1.flatMap MemoryBuffer.dataView
        _ = (spans.foldl Streambuf.pushBack .empty).contents.map Option.some := Alike.dataView ends
        _ = spans.flatten.map Option.some := by rw [contents]; rfl

-- 63 bytes and 2 more: a full cache line, and one byte in a buffer twice as large
example : (create.pushAll .unlimited [List.replicate 63 1, List.replicate 2 2]).toOption.map
    (fun stream => stream.flush.1.map fun buffer => (buffer.maxSize, buffer.offset)) =
      some [(64, 64), (128, 1)] := by
  decide +kernel

end MemoryStreambuf

end H2pp.Utils

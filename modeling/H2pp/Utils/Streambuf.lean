import H2pp.Utils.Buffer

/-! # The growing stream of buffers

`utils/streambuf.cpp`. The encoder appends its output here; the buffers grow
from one cache line to whole pages.
-/

namespace H2pp.Utils

/-- `align_size`: whole cache lines, or whole pages above one page. -/
def alignSize (size : Nat) : Nat :=
  if size > 4096 then ceilOrder2 size 12 else ceilOrder2 size 6

namespace Streambuf

/-- `check_size`: make sure the last buffer has room. -/
def checkSize (buffers : List Buffer) (sz : Nat) : List Buffer :=
  match buffers.getLast? with
  | none => buffers ++ [Buffer.create (max (alignSize sz) 64)]
  | some last =>
      if last.prepareSize = 0 then
        buffers ++ [Buffer.create (max (alignSize sz) (min (last.maxSize * 2) 4096))]
      else buffers

/-- The copy loop of `push_back`; every round copies at least one byte, so
`fuel` rounds are enough for `fuel` bytes. -/
def pushBackLoop : Nat → List Buffer → Bytes → List Buffer
  | 0, buffers, _ => buffers
  | fuel + 1, buffers, src =>
      if src.length > 0 then
        let buffers := checkSize buffers src.length
        match buffers.getLast? with
        | none => buffers
        | some last =>
            let n := min src.length last.prepareSize
            pushBackLoop fuel (buffers.dropLast ++ [last.commit (src.take n)]) (src.drop n)
      else buffers

/-- Every buffer of the stream owns some memory. -/
def Sized (buffers : List Buffer) : Prop := ∀ buffer ∈ buffers, 0 < buffer.maxSize

/-- Every buffer but the last is full, and none is empty. -/
def Packed (buffers : List Buffer) : Prop :=
  (∀ buffer ∈ buffers.dropLast, buffer.prepareSize = 0) ∧ ∀ buffer ∈ buffers, buffer.data ≠ []

/-- What `check_size` leaves: a last buffer with room behind buffers that are full if
they were, and no byte moved. -/
structure Ready (buffers initial : List Buffer) (last : Buffer) : Prop where
  room : 0 < last.prepareSize
  sized : Sized (initial ++ [last])
  same : (initial ++ [last]).flatMap Buffer.data = buffers.flatMap Buffer.data
  full : (∀ buffer ∈ buffers.dropLast, buffer.prepareSize = 0) →
    ∀ buffer ∈ initial, buffer.prepareSize = 0

/-- A new buffer behind those that are there, the last of them without room. -/
theorem ready_create {buffers : List Buffer} (sized : Sized buffers) {size : Nat}
    (positive : 0 < size) (full : ∀ last ∈ buffers.getLast?, last.prepareSize = 0) :
    Ready buffers buffers (Buffer.create size) where
  room := positive
  sized := by
    intro buffer member
    rcases List.mem_append.mp member with old | new
    · exact sized buffer old
    · rw [List.mem_singleton.mp new]
      exact positive
  same := by
    simp only [List.flatMap_append, List.flatMap_cons, Buffer.create_data, List.flatMap_nil,
      List.append_nil]
  full := by
    intro before buffer member
    rcases List.eq_nil_or_concat buffers with none | ⟨initial, last, split⟩
    · rw [none] at member
      cases member
    · rw [List.concat_eq_append] at split
      subst split
      rw [List.dropLast_concat] at before
      rcases List.mem_append.mp member with old | back
      · exact before buffer old
      · rw [List.mem_singleton.mp back]
        exact full last (by rw [List.getLast?_concat]; rfl)

/-- Writing into a buffer does not change its size. -/
theorem Ready.sized_commit {buffers initial : List Buffer} {last : Buffer}
    (ready : Ready buffers initial last) (span : Bytes) :
    Sized (initial ++ [last.commit span]) := by
  intro buffer member
  rcases List.mem_append.mp member with old | new
  · exact ready.sized buffer (List.mem_append_left _ old)
  · rw [List.mem_singleton.mp new]
    exact ready.sized last (by simp)

/-- After `check_size` there is a last buffer with room. -/
theorem checkSize_spec (buffers : List Buffer) (sz : Nat) (sized : Sized buffers) :
    ∃ initial last, checkSize buffers sz = initial ++ [last] ∧ Ready buffers initial last := by
  unfold checkSize
  cases back : buffers.getLast? with
  | none => exact ⟨buffers, _, rfl, ready_create sized (by omega) (by rw [back]; nofun)⟩
  | some last =>
      obtain ⟨initial, split⟩ := List.getLast?_eq_some_iff.mp back
      have positive : 0 < last.maxSize := sized last (by rw [split]; simp)
      by_cases full : last.prepareSize = 0
      · simp only [full, ↓reduceIte]
        refine ⟨buffers, _, rfl, ready_create sized (by omega) ?_⟩
        rw [back]
        rintro _ ⟨⟩
        exact full
      · simp only [full, ↓reduceIte]
        refine ⟨initial, last, split, by omega, split ▸ sized, by rw [split], ?_⟩
        rw [split, List.dropLast_concat]
        exact id

/-- **Invariants of the copy loop.** What every round keeps, which moves some bytes from
the front of the source into the last buffer, holds when the source is used up. -/
theorem pushBackLoop_invariant (invariant : List Buffer → Bytes → Prop)
    (round : ∀ buffers initial last part rest, Ready buffers initial last → part ≠ [] →
      part.length ≤ last.prepareSize → invariant buffers (part ++ rest) →
      invariant (initial ++ [last.commit part]) rest)
    (fuel : Nat) (buffers : List Buffer) (src : Bytes) (enough : src.length ≤ fuel)
    (sized : Sized buffers) (start : invariant buffers src) :
    Sized (pushBackLoop fuel buffers src) ∧ invariant (pushBackLoop fuel buffers src) [] := by
  induction fuel generalizing buffers src with
  | zero =>
      have none : src = [] := List.length_eq_zero_iff.mp (by omega)
      subst none
      exact ⟨sized, start⟩
  | succ fuel ih =>
      unfold pushBackLoop
      by_cases rest : src.length > 0
      · obtain ⟨initial, last, grown, ready⟩ := checkSize_spec buffers src.length sized
        have room := ready.room
        simp only [rest, ↓reduceIte, grown, List.getLast?_append, List.getLast?_singleton,
          Option.some_or, List.dropLast_concat]
        have part : (src.take (min src.length last.prepareSize)).length =
            min src.length last.prepareSize := by
          rw [List.length_take]
          omega
        refine ih _ _ (by rw [List.length_drop]; omega) (ready.sized_commit _) ?_
        refine round buffers initial last _ _ ready ?_ (by omega) ?_
        · exact List.ne_nil_of_length_pos (by omega)
        · rw [List.take_append_drop]
          exact start
      · have none : src = [] := List.length_eq_zero_iff.mp (by omega)
        subst none
        simp only [List.length_nil, gt_iff_lt, Nat.lt_irrefl, ↓reduceIte]
        exact ⟨sized, start⟩

/-- The copy loop appends exactly its source. -/
theorem pushBackLoop_spec (fuel : Nat) (buffers : List Buffer) (src : Bytes)
    (enough : src.length ≤ fuel) (sized : Sized buffers) :
    Sized (pushBackLoop fuel buffers src) ∧
      (pushBackLoop fuel buffers src).flatMap Buffer.data =
        buffers.flatMap Buffer.data ++ src := by
  obtain ⟨kept, whole⟩ := pushBackLoop_invariant
    (fun now left => now.flatMap Buffer.data ++ left = buffers.flatMap Buffer.data ++ src)
    (by
      intro before initial last part rest ready _ fits held
      rw [← held, ← ready.same]
      simp only [List.flatMap_append, List.flatMap_cons, List.flatMap_nil, List.append_nil,
        Buffer.commit_data fits, List.append_assoc])
    fuel buffers src enough sized rfl
  exact ⟨kept, by rwa [List.append_nil] at whole⟩

/-- The copy loop opens a buffer only behind full ones, and puts something into it. -/
theorem pushBackLoop_packed (fuel : Nat) (buffers : List Buffer) (src : Bytes)
    (enough : src.length ≤ fuel) (sized : Sized buffers) (packed : Packed buffers) :
    Packed (pushBackLoop fuel buffers src) := by
  refine (pushBackLoop_invariant (fun now _ => Packed now) ?_ fuel buffers src enough sized
    packed).2
  intro before initial last part rest ready some fits held
  have full := ready.full held.1
  refine ⟨by rwa [List.dropLast_concat], ?_⟩
  intro buffer member
  rcases List.mem_append.mp member with old | new
  · have positive := ready.sized buffer (List.mem_append_left _ old)
    have none := full buffer old
    unfold Buffer.prepareSize at none
    exact List.ne_nil_of_length_pos (by omega)
  · rw [List.mem_singleton.mp new, Buffer.commit_data fits]
    exact List.append_ne_nil_of_right_ne_nil _ some

end Streambuf

/-- `utils::streambuf`, front buffer first. -/
structure Streambuf where
  buffers : List Buffer
  sized : Streambuf.Sized buffers

namespace Streambuf

def empty : Streambuf := ⟨[], fun _ member => (List.not_mem_nil member).elim⟩

/-- An empty stream is packed. -/
theorem packed_empty : Packed empty.buffers := ⟨nofun, nofun⟩

/-- The bytes stored, in order. -/
def contents (stream : Streambuf) : Bytes := stream.buffers.flatMap Buffer.data

/-- `push_back(src)`. -/
def pushBack (stream : Streambuf) (src : Bytes) : Streambuf where
  buffers := pushBackLoop src.length stream.buffers src
  sized := (pushBackLoop_spec src.length stream.buffers src le_rfl stream.sized).1

/-- `flush()`: the buffers, and an empty stream again. -/
def flush (stream : Streambuf) : List Buffer × Streambuf := (stream.buffers, empty)

/-- Bytes are appended. -/
@[simp] theorem contents_pushBack (stream : Streambuf) (src : Bytes) :
    (stream.pushBack src).contents = stream.contents ++ src :=
  (pushBackLoop_spec src.length stream.buffers src le_rfl stream.sized).2

private theorem packed_pushBack {stream : Streambuf} (packed : Packed stream.buffers)
    (src : Bytes) :
    Packed (stream.pushBack src).buffers :=
  pushBackLoop_packed src.length stream.buffers src le_rfl stream.sized packed

/-- Any calls of `push_back` append their spans in order. -/
theorem foldl_pushBack {stream : Streambuf} (packed : Packed stream.buffers) (spans : List Bytes) :
    Packed (spans.foldl pushBack stream).buffers ∧
      (spans.foldl pushBack stream).contents = stream.contents ++ spans.flatten := by
  induction spans generalizing stream with
  | nil => exact ⟨packed, (List.append_nil _).symm⟩
  | cons src spans ih =>
      obtain ⟨after, contents⟩ := ih (packed_pushBack packed src)
      refine ⟨after, ?_⟩
      rw [List.foldl_cons, contents, contents_pushBack, List.flatten_cons, List.append_assoc]

/-- The buffers that are handed out hold all that was written. -/
theorem flush_contents (stream : Streambuf) :
    stream.flush.1.flatMap Buffer.data = stream.contents := rfl

end Streambuf

end H2pp.Utils

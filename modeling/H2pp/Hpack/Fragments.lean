import H2pp.Hpack.Representation

/-! # Decoding a block in fragments

A decoder that is given a header block one fragment after the other makes of it what
it makes of the whole block exactly when every fragment ends between two
representations, and every string reads from its fragment as it does from the block.
-/

namespace H2pp.Hpack

open Utils Instruction

/-- The representations of a span, read and executed one after the other. -/
inductive Decodes : DynamicTable → Span → DynamicTable → List HeaderField → Prop
  | done {table : DynamicTable} {src : Span} (empty : src.size = 0) : Decodes table src table []
  | command {table next after : DynamicTable} {src : Span} {found : Layout}
      {instruction : Instruction} {added fields : List HeaderField}
      (reads : Reads src found instruction)
      (executed : execute table instruction = .ok (next, added))
      (rest : Decodes next (src.subspan found.length) after fields) :
      Decodes table src after (added ++ fields)

/-- The representations of a part are all there, and the strings in them read as they
do from the whole block. -/
inductive Faithful : Span → Span → Prop
  | done {part whole : Span} (empty : part.size = 0) : Faithful part whole
  | command {part whole : Span} {found : Layout} (complete : layout part.bytes = some found)
      (same : ∀ start ∈ found.literals, StringLiteral.decode (part.subspan start) =
        StringLiteral.decode (whole.subspan start))
      (rest : Faithful (part.subspan found.length) (whole.subspan found.length)) :
      Faithful part whole

variable {table middle after : DynamicTable} {src part whole : Span} {found : Layout}
  {front back fields : List HeaderField}

private theorem layout_size (complete : layout src.bytes = some found) :
    0 < found.length ∧ found.length ≤ src.size := by
  obtain ⟨-, positive, inside⟩ := layout_append complete []
  rw [Span.length_bytes] at inside
  exact ⟨positive, inside⟩

/-- The loop decodes what there is. -/
theorem decodeLoop_eq {fuel : Nat} (enough : src.size ≤ fuel) :
    Decoder.decodeLoop fuel table src front = (after, .ok fields) ↔
      ∃ added, fields = front ++ added ∧ Decodes table src after added := by
  constructor
  · intro decoded
    induction fuel generalizing table src front with
    | zero =>
        cases decoded
        exact ⟨[], (List.append_nil _).symm, .done (Nat.le_zero.mp enough)⟩
    | succ fuel ih =>
        rw [Decoder.decodeLoop] at decoded
        split at decoded
        · rename_i empty
          cases decoded
          exact ⟨[], (List.append_nil _).symm, .done empty⟩
        · split at decoded
          · cases decoded
          · rename_i next ran
            obtain ⟨found, instruction, reads, executed, same⟩ := of_runCommand ran
            have size := layout_size reads.layout_eq
            rw [same] at decoded
            obtain ⟨added, rfl, rest⟩ :=
              ih (by change src.size - found.length ≤ fuel; omega) decoded
            exact ⟨next.added ++ added, List.append_assoc .., .command reads executed rest⟩
  · rintro ⟨added, rfl, decodes⟩
    induction decodes generalizing fuel front with
    | done empty =>
        cases fuel with
        | zero => rw [Decoder.decodeLoop, List.append_nil]
        | succ fuel => rw [Decoder.decodeLoop, if_pos empty, List.append_nil]
    | @command table next after src found instruction added fields reads executed rest ih =>
        have size := layout_size reads.layout_eq
        cases fuel with
        | zero => omega
        | succ fuel =>
            rw [Decoder.decodeLoop, if_neg (by omega), reads.runCommand executed]
            simp only
            rw [ih (by change src.size - found.length ≤ fuel; omega), List.append_assoc]

/-- A decoder accepts a block whose representations can be read and executed. -/
theorem decode_eq : Decoder.decode ⟨table⟩ src = (⟨after⟩, .ok fields) ↔
    Decodes table src after fields := by
  have loop := @decodeLoop_eq table after src [] fields src.size (Nat.le_refl _)
  simp only [List.nil_append, exists_eq_left'] at loop
  rw [← loop, Decoder.decode]
  simp only [Decoder.mk.injEq, Prod.ext_iff]

/-! ## Cutting a block -/

private theorem Decodes.of_empty (empty : src.size = 0) (decodes : Decodes table src after fields) :
    after = table ∧ fields = [] := by
  cases decodes with
  | done => exact ⟨rfl, rfl⟩
  | command reads =>
      have size := layout_size reads.layout_eq
      omega

/-- The first representation of the whole block, if the part has one. -/
theorem Decodes.first (complete : layout part.bytes = some found)
    (starts : part.bytes <+: whole.bytes) (decodes : Decodes table whole after fields) :
    ∃ instruction next added later, Reads whole found instruction ∧
      execute table instruction = .ok (next, added) ∧
      Decodes next (whole.subspan found.length) after later ∧ fields = added ++ later := by
  have same := (front_alike complete starts).2
  cases decodes with
  | done empty =>
      have size := layout_size same
      omega
  | command reads executed rest =>
      cases reads.layout_eq.symm.trans same
      exact ⟨_, _, _, _, reads, executed, rest, rfl⟩

private theorem starts_subspan (starts : part.bytes <+: whole.bytes) (count : Nat) :
    (part.subspan count).bytes <+: (whole.subspan count).bytes := by
  obtain ⟨more, content⟩ := starts
  rw [Span.bytes_subspan, Span.bytes_subspan, ← content, List.drop_append]
  exact List.prefix_append _ _

private theorem subspan_rest (complete : layout part.bytes = some found) :
    (whole.subspan found.length).subspan (part.subspan found.length).size =
      whole.subspan part.size := by
  have size := layout_size complete
  rw [Span.subspan_subspan]
  change whole.subspan (found.length + (part.size - found.length)) = _
  rw [Nat.add_sub_cancel' size.2]

/-- A block can be cut where its start is a faithful part. -/
theorem Faithful.split (faithful : Faithful part whole) (starts : part.bytes <+: whole.bytes)
    (decodes : Decodes table whole after fields) :
    ∃ middle front back, Decodes table part middle front ∧
      Decodes middle (whole.subspan part.size) after back ∧ fields = front ++ back := by
  induction faithful generalizing table fields with
  | done empty =>
      rw [empty, Span.subspan_zero]
      exact ⟨table, [], fields, .done empty, decodes, rfl⟩
  | command complete same rest ih =>
      obtain ⟨instruction, next, added, later, reads, executed, others, rfl⟩ :=
        decodes.first complete starts
      obtain ⟨middle, front, back, first, second, rfl⟩ := ih (starts_subspan starts _) others
      rw [subspan_rest complete] at second
      exact ⟨middle, added ++ front, back,
        .command (reads.of_whole complete starts same) executed first, second,
        (List.append_assoc ..).symm⟩

/-- A part that gives the first fields of the whole block is a faithful one. -/
theorem Decodes.faithful (first : Decodes table part middle front)
    (starts : part.bytes <+: whole.bytes)
    (decodes : Decodes table whole after (front ++ back)) :
    Faithful part whole ∧ Decodes middle (whole.subspan part.size) after back := by
  generalize all : front ++ back = fields at decodes
  induction first generalizing whole fields with
  | done empty =>
      rw [empty, Span.subspan_zero]
      cases all
      exact ⟨.done empty, decodes⟩
  | command reads executed rest ih =>
      have complete := reads.layout_eq
      obtain ⟨instruction, next, added, later, again, repeated, others, rfl⟩ :=
        decodes.first complete starts
      obtain ⟨length, alike⟩ := reads.alike again starts executed repeated
      rw [List.append_assoc] at all
      obtain ⟨same, all⟩ := List.append_inj all length
      obtain ⟨rfl, strings⟩ := alike same
      obtain ⟨faithful, second⟩ := ih (starts_subspan starts _) _ all others
      rw [subspan_rest complete] at second
      exact ⟨.command complete strings faithful, second⟩

/-! ## Any number of fragments -/

/-- Every fragment is faithful to its place in the block. -/
def AllFaithful : List Span → Span → Prop
  | [], _ => True
  | part :: parts, whole => Faithful part whole ∧ AllFaithful parts (whole.subspan part.size)

/-- Fragments decoded one after the other. -/
inductive DecodesAll : DynamicTable → List Span → DynamicTable → List HeaderField → Prop
  | nil {table : DynamicTable} : DecodesAll table [] table []
  | cons {table middle after : DynamicTable} {part : Span} {parts : List Span}
      {front back : List HeaderField} (first : Decodes table part middle front)
      (rest : DecodesAll middle parts after back) :
      DecodesAll table (part :: parts) after (front ++ back)

/-- Decoding the fragments of a block is decoding the block, exactly when all of them
are faithful. -/
theorem decodesAll_iff {parts : List Span} (content : whole.bytes = parts.flatMap Span.bytes)
    (decodes : Decodes table whole after fields) :
    DecodesAll table parts after fields ↔ AllFaithful parts whole := by
  induction parts generalizing table whole fields with
  | nil =>
      have empty : whole.size = 0 := by
        rw [← Span.length_bytes, content]
        rfl
      obtain ⟨rfl, rfl⟩ := decodes.of_empty empty
      exact ⟨fun _ => trivial, fun _ => .nil⟩
  | cons part parts ih =>
      rw [List.flatMap_cons] at content
      have starts : part.bytes <+: whole.bytes := ⟨_, content.symm⟩
      have rest : (whole.subspan part.size).bytes = parts.flatMap Span.bytes := by
        rw [Span.bytes_subspan, content, ← Span.length_bytes, List.drop_left]
      constructor
      · rintro (_ | ⟨first, others⟩)
        obtain ⟨faithful, second⟩ := first.faithful starts decodes
        exact ⟨faithful, (ih rest second).mp others⟩
      · rintro ⟨faithful, others⟩
        obtain ⟨middle, front, back, first, second, rfl⟩ := faithful.split starts decodes
        exact .cons first ((ih rest second).mpr others)

end H2pp.Hpack

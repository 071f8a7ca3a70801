import H2pp.Hpack.Integer

/-! # The integer format

RFC 7541 gives an integer as many groups of seven bits as a sender likes, so its value
has no bound, and zero groups may follow the last one that counts. `decode` adds the
groups up in a 64-bit word. The tenth group is shifted by 63 bits and keeps its lowest
bit only; for the eleventh the shift is undefined.
-/

namespace H2pp.Hpack.Integer

open Utils

/-- The value of groups, the first of which counts `2 ^ m`. -/
def groupsValue (m : Nat) : Bytes → Nat
  | [] => 0
  | b :: groups => b.toNat % 128 * 2 ^ m + groupsValue (m + 7) groups

/-- Groups that end at the first byte without the top bit. -/
def Complete : Bytes → Prop
  | [] => False
  | b :: groups => if b.toNat < 128 then groups = [] else Complete groups

instance Complete.decidable : (groups : Bytes) → Decidable (Complete groups)
  | [] => isFalse id
  | _ :: groups =>
      have := Complete.decidable groups
      inferInstanceAs (Decidable (ite _ _ _))

/-- The bytes of an integer, after a prefix of `bits` bits, and its value. -/
inductive Represents (bits : Nat) : Bytes → Nat → Prop
  | short {front : UInt8} (small : front.toNat % 2 ^ (8 - bits) < 2 ^ (8 - bits) - 1) :
      Represents bits [front] (front.toNat % 2 ^ (8 - bits))
  | long {front : UInt8} {groups : Bytes}
      (full : front.toNat % 2 ^ (8 - bits) = 2 ^ (8 - bits) - 1) (complete : Complete groups) :
      Represents bits (front :: groups) (2 ^ (8 - bits) - 1 + groupsValue 0 groups)

/-- `decode` returns the integer at the front, if there is one that is admitted, and
throws otherwise. -/
structure Exact (bits : Nat) (src : Bytes) : Prop where
  returns : ∀ used value, decode bits src = .ok ⟨used, value⟩ ↔
    ∃ bytes tail, src = bytes ++ tail ∧ bytes.length = used ∧ Represents bits bytes value ∧
      value ≤ maxHpackInt
  throws : decode bits src ≠ .error .undefinedBehaviour

/-- No group is shifted out of the word: as long as groups are read, the shift is less
than 64, and a group whose bits are all lost is the last byte of an integer that is cut
off behind it. -/
def ShiftsFit (value m : Nat) : Bytes → Prop
  | [] => True
  | b :: src =>
      m < 64 ∧
        if b.toNat % 128 ≠ 0 ∧ b.toNat % 128 * 2 ^ m % 2 ^ 64 = 0 then 128 ≤ b.toNat ∧ src = []
        else value + b.toNat % 128 * 2 ^ m ≤ maxHpackInt → 128 ≤ b.toNat →
          ShiftsFit (value + b.toNat % 128 * 2 ^ m) (m + 7) src

instance ShiftsFit.decidable : (value m : Nat) → (src : Bytes) → Decidable (ShiftsFit value m src)
  | _, _, [] => isTrue trivial
  | value, m, b :: src =>
      have := ShiftsFit.decidable (value + b.toNat % 128 * 2 ^ m) (m + 7) src
      inferInstanceAs (Decidable (_ ∧ ite _ _ _))

/-- The same for the groups behind a prefix that is full. -/
def PrefixFits (bits : Nat) : Bytes → Prop
  | [] => True
  | front :: src => front.toNat % 2 ^ (8 - bits) = 2 ^ (8 - bits) - 1 →
      ShiftsFit (2 ^ (8 - bits) - 1) 0 src

/-- Groups are added up exactly. -/
structure GroupsExact (value m used : Nat) (src : Bytes) : Prop where
  returns : ∀ total result, decodeGroups value m used src = .ok ⟨total, result⟩ ↔
    ∃ groups tail, src = groups ++ tail ∧ used + groups.length = total ∧ Complete groups ∧
      value + groupsValue m groups = result ∧ result ≤ maxHpackInt
  throws : decodeGroups value m used src ≠ .error .undefinedBehaviour

section Groups

variable {value m used : Nat} {b : UInt8} {src : Bytes}

private theorem group_low (b : UInt8) : b.toNat &&& 0x7f = b.toNat % 128 :=
  Nat.and_two_pow_sub_one_eq_mod b.toNat 7

private theorem group_more (b : UInt8) : b.toNat &&& 0x80 ≠ 0 ↔ 128 ≤ b.toNat := by
  have byte := b.toNat_lt
  by_cases more : 128 ≤ b.toNat
  · obtain ⟨low, same⟩ := Nat.exists_eq_add_of_le' more
    obtain ⟨-, go, -, -⟩ := group_bits low (by omega)
    rw [same]
    exact ⟨fun _ => Nat.le_add_left _ _, fun _ => go⟩
  · obtain ⟨-, -, -, stop⟩ := group_bits b.toNat (Nat.not_le.mp more)
    exact ⟨fun go => absurd stop go, fun less => absurd less more⟩

/-- A group that does not vanish in the word exceeds the limit there exactly when its
value does. -/
theorem sum_exact (small : value ≤ maxHpackInt) {group : Nat} (group_lt : group < 128)
    (kept : ¬ (group ≠ 0 ∧ group * 2 ^ m % 2 ^ 64 = 0)) :
    (value + group * 2 ^ m ≤ maxHpackInt →
      (value + group <<< m % 2 ^ 64) % 2 ^ 64 = value + group * 2 ^ m) ∧
    (maxHpackInt < value + group * 2 ^ m →
      maxHpackInt < (value + group <<< m % 2 ^ 64) % 2 ^ 64) := by
  have limit : maxHpackInt = 16777200 := rfl
  rw [Nat.shiftLeft_eq]
  by_cases low : m ≤ 57
  · have bound : group * 2 ^ m ≤ 127 * 2 ^ 57 :=
      Nat.mul_le_mul (Nat.le_of_lt_succ group_lt) (Nat.pow_le_pow_right (by decide) low)
    rw [Nat.mod_eq_of_lt (by omega), Nat.mod_eq_of_lt (by omega)]
    exact ⟨fun _ => rfl, id⟩
  · -- all that is left of the group in the word is at bit 58 or above
    obtain ⟨more, rfl⟩ := Nat.exists_eq_add_of_le (Nat.not_le.mp low)
    have split : group * 2 ^ (57 + 1 + more) = 2 ^ 58 * (group * 2 ^ more) := by
      rw [Nat.pow_add, Nat.mul_left_comm]
    have rest : 2 ^ 58 * (group * 2 ^ more) % 2 ^ 64 = 2 ^ 58 * (group * 2 ^ more % 64) :=
      Nat.mul_mod_mul_left (2 ^ 58) (group * 2 ^ more) 64
    have bound : group * 2 ^ more % 64 < 64 := Nat.mod_lt _ (by decide)
    rw [split, rest] at kept ⊢
    by_cases zero : group = 0
    · subst zero
      rw [Nat.zero_mul, Nat.zero_mod, Nat.mul_zero, Nat.add_zero, Nat.mod_eq_of_lt (by omega)]
      exact ⟨fun _ => rfl, id⟩
    · have positive : 0 < group * 2 ^ more :=
        Nat.mul_pos (Nat.pos_of_ne_zero zero) (Nat.two_pow_pos _)
      have some : group * 2 ^ more % 64 ≠ 0 := fun none => kept ⟨zero, by rw [none, Nat.mul_zero]⟩
      rw [Nat.mod_eq_of_lt (by omega)]
      exact ⟨fun _ => by omega, fun _ => by omega⟩

/-- What the loop does with a group that is kept. -/
theorem decodeGroups_kept (small : value ≤ maxHpackInt) (shift : m < 64)
    (kept : ¬ (b.toNat % 128 ≠ 0 ∧ b.toNat % 128 * 2 ^ m % 2 ^ 64 = 0)) :
    decodeGroups value m used (b :: src) =
      if maxHpackInt < value + b.toNat % 128 * 2 ^ m then
        .error (.overflowError "An overflow in HPACK int decoding")
      else if 128 ≤ b.toNat then
        decodeGroups (value + b.toNat % 128 * 2 ^ m) (m + 7) (used + 1) src
      else .ok ⟨used + 1, value + b.toNat % 128 * 2 ^ m⟩ := by
  obtain ⟨exact_, exceeds⟩ := sum_exact small (Nat.mod_lt b.toNat (by decide)) kept
  rw [decodeGroups, if_neg (Nat.not_le.mpr shift)]
  simp only [group_low, group_more]
  by_cases large : maxHpackInt < value + b.toNat % 128 * 2 ^ m
  · rw [if_pos (exceeds large), if_pos large]
  · rw [exact_ (Nat.not_lt.mp large), if_neg large]

/-- What the loop does with a group that is lost. -/
theorem decodeGroups_lost (small : value ≤ maxHpackInt) (shift : m < 64)
    (lost : b.toNat % 128 * 2 ^ m % 2 ^ 64 = 0) :
    decodeGroups value m used (b :: src) =
      if 128 ≤ b.toNat then decodeGroups value (m + 7) (used + 1) src
      else .ok ⟨used + 1, value⟩ := by
  have limit : maxHpackInt = 16777200 := rfl
  rw [decodeGroups, if_neg (Nat.not_le.mpr shift)]
  simp only [group_low, group_more, Nat.shiftLeft_eq, lost, Nat.add_zero]
  rw [Nat.mod_eq_of_lt (by omega), if_neg (Nat.not_lt.mpr small)]

/-- The complete groups at the front of a sequence. -/
theorem complete_cons {groups tail : Bytes} :
    (b :: src = groups ++ tail ∧ Complete groups) ↔
      b.toNat < 128 ∧ groups = [b] ∧ tail = src ∨
      128 ≤ b.toNat ∧ ∃ later, groups = b :: later ∧ src = later ++ tail ∧ Complete later := by
  constructor
  · rintro ⟨content, complete⟩
    cases groups with
    | nil => exact complete.elim
    | cons first later =>
        obtain ⟨rfl, rfl⟩ := List.cons.inj content
        unfold Complete at complete
        split at complete
        · rename_i last
          subst complete
          exact .inl ⟨last, rfl, rfl⟩
        · rename_i more
          exact .inr ⟨Nat.not_lt.mp more, later, rfl, rfl, complete⟩
  · rintro (⟨last, rfl, rfl⟩ | ⟨more, later, rfl, rfl, complete⟩)
    · refine ⟨rfl, ?_⟩
      rw [Complete, if_pos last]
    · refine ⟨rfl, ?_⟩
      rw [Complete, if_neg (Nat.not_lt.mpr more)]
      exact complete

/-- An error that is not undefined is right when no admitted integer is at the front. -/
theorem groupsExact_error {failure : Failure}
    (thrown : decodeGroups value m used src = .error failure)
    (defined : failure ≠ .undefinedBehaviour)
    (none : ∀ groups tail, src = groups ++ tail → Complete groups →
      maxHpackInt < value + groupsValue m groups) : GroupsExact value m used src := by
  refine ⟨fun total result => ⟨fun returned => ?_, ?_⟩, fun undefined => ?_⟩
  · cases thrown.symm.trans returned
  · rintro ⟨groups, tail, content, -, complete, rfl, bound⟩
    exact absurd bound (Nat.not_le.mpr (none groups tail content complete))
  · cases thrown.symm.trans undefined
    exact defined rfl

/-- The last group is added exactly when the loop returns the sum. -/
theorem groupsExact_last (last : b.toNat < 128) {result : Nat}
    (returned : decodeGroups value m used (b :: src) = .ok ⟨used + 1, result⟩) :
    GroupsExact value m used (b :: src) ↔
      result = value + b.toNat % 128 * 2 ^ m ∧ result ≤ maxHpackInt := by
  constructor
  · intro holds
    obtain ⟨groups, tail, content, -, complete, total, bound⟩ := (holds.returns _ _).mp returned
    rcases complete_cons.mp ⟨content, complete⟩ with ⟨-, rfl, -⟩ | ⟨more, -⟩
    · exact ⟨total.symm, bound⟩
    · exact absurd more (Nat.not_le.mpr last)
  · rintro ⟨rfl, bound⟩
    refine ⟨fun total other => ⟨fun same => ?_, ?_⟩, fun undefined => ?_⟩
    · cases returned.symm.trans same
      obtain ⟨content, complete⟩ := complete_cons.mpr (.inl ⟨last, rfl, rfl⟩)
      exact ⟨[b], src, content, rfl, complete, rfl, bound⟩
    · rintro ⟨groups, tail, content, rfl, complete, rfl, -⟩
      rcases complete_cons.mp ⟨content, complete⟩ with ⟨-, rfl, -⟩ | ⟨more, -⟩
      · exact returned
      · exact absurd more (Nat.not_le.mpr last)
    · cases returned.symm.trans undefined

/-- Behind a group with the top bit it is the rest that counts. -/
theorem groupsExact_more (more : 128 ≤ b.toNat)
    (goes : decodeGroups value m used (b :: src) =
      decodeGroups (value + b.toNat % 128 * 2 ^ m) (m + 7) (used + 1) src) :
    GroupsExact value m used (b :: src) ↔
      GroupsExact (value + b.toNat % 128 * 2 ^ m) (m + 7) (used + 1) src := by
  have same (total result : Nat) :
      (∃ groups tail, b :: src = groups ++ tail ∧ used + groups.length = total ∧
        Complete groups ∧ value + groupsValue m groups = result ∧ result ≤ maxHpackInt) ↔
      ∃ groups tail, src = groups ++ tail ∧ used + 1 + groups.length = total ∧ Complete groups ∧
        value + b.toNat % 128 * 2 ^ m + groupsValue (m + 7) groups = result ∧
        result ≤ maxHpackInt := by
    constructor
    · rintro ⟨groups, tail, content, rfl, complete, rfl, bound⟩
      rcases complete_cons.mp ⟨content, complete⟩ with ⟨last, -⟩ | ⟨-, later, rfl, rest, ends⟩
      · exact absurd more (Nat.not_le.mpr last)
      · refine ⟨later, tail, rest, ?_, ends, ?_, bound⟩
        · rw [List.length_cons, Nat.add_right_comm, Nat.add_assoc]
        · rw [groupsValue, Nat.add_assoc]
    · rintro ⟨later, tail, rest, rfl, ends, rfl, bound⟩
      obtain ⟨content, complete⟩ :=
        complete_cons.mpr (.inr ⟨more, later, rfl, rest, ends⟩)
      refine ⟨b :: later, tail, content, ?_, complete, ?_, bound⟩
      · rw [List.length_cons, Nat.add_right_comm, Nat.add_assoc]
      · rw [groupsValue, Nat.add_assoc]
  constructor
  · rintro ⟨returns, throws⟩
    rw [goes] at returns throws
    exact ⟨fun total result => (returns total result).trans (same total result), throws⟩
  · rintro ⟨returns, throws⟩
    refine ⟨fun total result => ?_, by rw [goes]; exact throws⟩
    rw [goes]
    exact (returns total result).trans (same total result).symm

/-- A group whose bits are all lost makes the sum wrong, unless the input ends there. -/
theorem groupsExact_lost (small : value ≤ maxHpackInt) (shift : m < 64)
    (some : b.toNat % 128 ≠ 0) (lost : b.toNat % 128 * 2 ^ m % 2 ^ 64 = 0) :
    GroupsExact value m used (b :: src) ↔ 128 ≤ b.toNat ∧ src = [] := by
  have counts : 0 < b.toNat % 128 * 2 ^ m :=
    Nat.mul_pos (Nat.pos_of_ne_zero some) (Nat.two_pow_pos m)
  by_cases more : 128 ≤ b.toNat
  · have goes := @decodeGroups_lost value m used b src small shift lost
    rw [if_pos more] at goes
    cases src with
    | nil =>
        refine ⟨fun _ => ⟨more, rfl⟩, fun _ => ?_⟩
        have thrown : decodeGroups value m used [b] =
          .error (.invalidArgument "A src has not enough data") := goes
        refine groupsExact_error thrown (by decide) fun groups tail content complete => ?_
        rcases complete_cons.mp ⟨content, complete⟩ with ⟨last, -⟩ | ⟨-, later, -, rest, ends⟩
        · exact absurd more (Nat.not_le.mpr last)
        · rw [(List.append_eq_nil_iff.mp rest.symm).1] at ends
          exact ends.elim
    | cons next src =>
        have far : m + 7 ≥ 64 := by
          by_contra near
          have bound : b.toNat % 128 * 2 ^ m < 128 * 2 ^ 57 :=
            Nat.mul_lt_mul_of_lt_of_le (Nat.mod_lt _ (by decide))
              (Nat.pow_le_pow_right (by decide) (by omega)) (Nat.two_pow_pos 57)
          rw [Nat.mod_eq_of_lt (by omega)] at lost
          omega
        have undefined : decodeGroups value (m + 7) (used + 1) (next :: src) =
            .error .undefinedBehaviour := by
          rw [decodeGroups, if_pos far]
        rw [undefined] at goes
        exact ⟨fun holds => absurd goes holds.throws,
          fun ends => absurd ends.2 (List.cons_ne_nil _ _)⟩
  · have returned := @decodeGroups_lost value m used b src small shift lost
    rw [if_neg more] at returned
    rw [groupsExact_last (Nat.not_le.mp more) returned]
    exact ⟨fun holds => absurd holds.1 (by omega), fun ends => absurd ends.1 more⟩

/-- The groups are added up exactly if and only if none is shifted out of the word. -/
theorem groupsExact_iff (small : value ≤ maxHpackInt) :
    GroupsExact value m used src ↔ ShiftsFit value m src := by
  induction src generalizing value m used with
  | nil =>
      have thrown : decodeGroups value m used [] =
        .error (.invalidArgument "A src has not enough data") := rfl
      refine ⟨fun _ => trivial, fun _ => groupsExact_error thrown nofun
        fun groups tail content => ?_⟩
      rw [(List.append_eq_nil_iff.mp content.symm).1]
      exact False.elim
  | cons b src ih =>
      rw [ShiftsFit]
      by_cases shift : m < 64
      · rw [and_iff_right shift]
        split
        · rename_i lost
          exact groupsExact_lost small shift lost.1 lost.2
        · rename_i kept
          have turn := @decodeGroups_kept value m used b src small shift kept
          by_cases large : maxHpackInt < value + b.toNat % 128 * 2 ^ m
          · rw [if_pos large] at turn
            refine ⟨fun _ bound => absurd bound (Nat.not_le.mpr large), fun _ => ?_⟩
            refine groupsExact_error turn nofun fun groups tail content complete => ?_
            rcases complete_cons.mp ⟨content, complete⟩ with ⟨-, rfl, -⟩ | ⟨-, later, rfl, -⟩
            · exact large
            · rw [groupsValue, ← Nat.add_assoc]
              exact Nat.lt_add_right _ large
          · rw [if_neg large] at turn
            have bound := Nat.not_lt.mp large
            by_cases more : 128 ≤ b.toNat
            · rw [if_pos more] at turn
              rw [groupsExact_more more turn, ih bound]
              exact ⟨fun fits _ _ => fits, fun fits => fits bound more⟩
            · rw [if_neg more] at turn
              rw [groupsExact_last (Nat.not_le.mp more) turn]
              exact ⟨fun _ _ go => absurd go more, fun _ => ⟨rfl, bound⟩⟩
      · have undefined : decodeGroups value m used (b :: src) = .error .undefinedBehaviour := by
          rw [decodeGroups, if_pos (Nat.not_lt.mp shift)]
        exact ⟨fun holds => absurd undefined holds.throws, fun fits => absurd fits.1 shift⟩

end Groups

section Prefix

variable {bits : Nat} {front : UInt8} {src : Bytes}

/-- A number is in its prefix, or the prefix is full and groups follow. -/
theorem decode_eq (lower : 1 ≤ bits) (upper : bits ≤ 4) :
    decode bits (front :: src) =
      if front.toNat % 2 ^ (8 - bits) < 2 ^ (8 - bits) - 1 then
        .ok ⟨1, front.toNat % 2 ^ (8 - bits)⟩
      else decodeGroups (front.toNat % 2 ^ (8 - bits)) 0 1 src := by
  rw [decode, if_neg (by omega)]
  simp only [@makeMask_of_lt 8 (8 - bits) (by omega), Nat.and_two_pow_sub_one_eq_mod]

/-- A prefix that is not full is the whole integer. -/
theorem exact_short (lower : 1 ≤ bits) (upper : bits ≤ 4)
    (small : front.toNat % 2 ^ (8 - bits) < 2 ^ (8 - bits) - 1) : Exact bits (front :: src) := by
  have returned : decode bits (front :: src) = .ok ⟨1, front.toNat % 2 ^ (8 - bits)⟩ := by
    rw [decode_eq lower upper, if_pos small]
  have bound : front.toNat % 2 ^ (8 - bits) ≤ maxHpackInt :=
    Nat.le_trans (Nat.mod_le _ _) (Nat.le_trans (Nat.le_of_lt front.toNat_lt) (by decide))
  refine ⟨fun used value => ⟨fun same => ?_, ?_⟩, fun undefined => ?_⟩
  · cases returned.symm.trans same
    exact ⟨[front], src, rfl, rfl, .short small, bound⟩
  · rintro ⟨bytes, tail, content, rfl, represents, -⟩
    cases represents with
    | short =>
        obtain ⟨rfl, -⟩ := List.cons.inj content
        exact returned
    | long full =>
        obtain ⟨rfl, -⟩ := List.cons.inj content
        exact absurd full (Nat.ne_of_lt small)
  · cases returned.symm.trans undefined

/-- Behind a full prefix the groups are what counts. -/
theorem exact_long (lower : 1 ≤ bits) (upper : bits ≤ 4)
    (full : front.toNat % 2 ^ (8 - bits) = 2 ^ (8 - bits) - 1) :
    Exact bits (front :: src) ↔ GroupsExact (2 ^ (8 - bits) - 1) 0 1 src := by
  have goes : decode bits (front :: src) = decodeGroups (2 ^ (8 - bits) - 1) 0 1 src := by
    rw [decode_eq lower upper, full, if_neg (Nat.lt_irrefl _)]
  have same (used value : Nat) :
      (∃ bytes tail, front :: src = bytes ++ tail ∧ bytes.length = used ∧
        Represents bits bytes value ∧ value ≤ maxHpackInt) ↔
      ∃ groups tail, src = groups ++ tail ∧ 1 + groups.length = used ∧ Complete groups ∧
        2 ^ (8 - bits) - 1 + groupsValue 0 groups = value ∧ value ≤ maxHpackInt := by
    constructor
    · rintro ⟨bytes, tail, content, rfl, represents, bound⟩
      cases represents with
      | short small =>
          obtain ⟨rfl, -⟩ := List.cons.inj content
          exact absurd full (Nat.ne_of_lt small)
      | @long _ groups _ complete =>
          obtain ⟨-, rest⟩ := List.cons.inj content
          exact ⟨groups, tail, rest, Nat.add_comm _ _, complete, rfl, bound⟩
    · rintro ⟨groups, tail, rfl, rfl, complete, rfl, bound⟩
      exact ⟨front :: groups, tail, rfl, Nat.add_comm _ _, .long full complete, bound⟩
  constructor
  · rintro ⟨returns, throws⟩
    rw [goes] at returns throws
    exact ⟨fun used value => (returns used value).trans (same used value), throws⟩
  · rintro ⟨returns, throws⟩
    refine ⟨fun used value => ?_, by rw [goes]; exact throws⟩
    rw [goes]
    exact (returns used value).trans (same used value).symm

end Prefix

/-- **Integers are decoded exactly** if and only if no group is shifted out of the word. -/
theorem decode_exact_iff {bits : Nat} (lower : 1 ≤ bits) (upper : bits ≤ 4) (src : Bytes) :
    Exact bits src ↔ PrefixFits bits src := by
  cases src with
  | nil =>
      refine ⟨fun _ => trivial, fun _ => ⟨fun used value => ⟨nofun, ?_⟩, nofun⟩⟩
      rintro ⟨bytes, tail, content, -, represents, -⟩
      rw [(List.append_eq_nil_iff.mp content.symm).1] at represents
      cases represents
  | cons front src =>
      have positive := Nat.two_pow_pos (8 - bits)
      by_cases full : front.toNat % 2 ^ (8 - bits) = 2 ^ (8 - bits) - 1
      · have width : 2 ^ (8 - bits) ≤ 2 ^ 8 := Nat.pow_le_pow_right (by decide) (by omega)
        have small : 2 ^ (8 - bits) - 1 ≤ maxHpackInt :=
          Nat.le_trans (Nat.sub_le _ _) (Nat.le_trans width (by decide))
        rw [exact_long lower upper full, groupsExact_iff small]
        exact ⟨fun fits _ => fits, fun fits => fits full⟩
      · have below := Nat.mod_lt front.toNat positive
        exact ⟨fun _ full' => absurd full' full, fun _ => exact_short lower upper (by omega)⟩

/-- Zero groups may follow. -/
theorem decode_exact_padded :
    Exact 1 [0x7f, 0x80, 0x80, 0x80, 0x80, 0x00] ∧
      decode 1 [0x7f, 0x80, 0x80, 0x80, 0x80, 0x00] = .ok ⟨6, 0x7f⟩ :=
  ⟨(decode_exact_iff (by decide) (by decide) _).mpr fun _ => by decide, by decide⟩

/-- An integer of `2 ^ 64 + 127` is read as 127. -/
theorem decode_lost_group :
    Represents 1 (0x7f :: List.replicate 9 0x80 ++ [0x02]) (127 + 2 ^ 64) ∧
      decode 1 (0x7f :: List.replicate 9 0x80 ++ [0x02]) = .ok ⟨11, 127⟩ ∧
      ¬ Exact 1 (0x7f :: List.replicate 9 0x80 ++ [0x02]) := by
  refine ⟨?_, by decide, ?_⟩
  · exact @Represents.long 1 0x7f (List.replicate 9 0x80 ++ [0x02]) (by decide) (by decide)
  · rw [List.cons_append, exact_long (by decide) (by decide) (by decide),
      groupsExact_iff (by decide)]
    decide

/-! ## Round trip -/

/-- A value has at most as many groups as it needs. -/
theorem length_encodeGroups_le {value : Nat} (rounds count : Nat) (small : value < 128 ^ count)
    (some : 0 < count) : (encodeGroups rounds value).length ≤ count := by
  induction rounds generalizing value count with
  | zero => exact Nat.zero_le _
  | succ rounds ih =>
      rw [encodeGroups]
      split
      · rename_i more
        cases count with
        | zero => exact absurd some (Nat.lt_irrefl _)
        | succ count =>
            have rest : value / 128 < 128 ^ count :=
              Nat.div_lt_of_lt_mul (by rw [← Nat.pow_succ']; exact small)
            have positive : 0 < count := by
              rcases Nat.eq_zero_or_pos count with rfl | positive
              · rw [Nat.pow_one] at small
                exact absurd small (Nat.not_lt.mpr more)
              · exact positive
            exact Nat.succ_le_succ (ih count rest positive)
      · exact some

/-- The high bits of the first byte are those of a prefix that leaves the low bits free. -/
theorem front_high {init : UInt8} {bits low : Nat} (bitsBound : bits ≤ 8) (bound : low < 2 ^ bits) :
    (init ||| UInt8.ofNat low).toNat / 2 ^ bits = init.toNat / 2 ^ bits := by
  have width : 2 ^ bits ≤ 2 ^ 8 := Nat.pow_le_pow_right (by decide) bitsBound
  have small : low < 2 ^ 8 := Nat.lt_of_lt_of_le bound width
  rw [UInt8.toNat_or, UInt8.toNat_ofNat', Nat.mod_eq_of_lt small, Nat.or_div_two_pow,
    Nat.div_eq_of_lt bound, Nat.or_zero]

/-- **Integer round trip.** A value up to the limit is written into at most five bytes,
below the high bits of the prefix, and read back with any bytes behind it; a larger one is
refused. -/
theorem encode_round_trip {init : UInt8} {bitlen : Nat} (lower : 1 ≤ bitlen)
    (upper : bitlen ≤ 4) (free : init.toNat % 2 ^ (8 - bitlen) = 0) (value : Nat) :
    (value ≤ maxHpackInt → ∃ front rest, encode init bitlen value = .ok (front :: rest) ∧
      (front :: rest).length ≤ 5 ∧
      front.toNat / 2 ^ (8 - bitlen) = init.toNat / 2 ^ (8 - bitlen) ∧
      ∀ tail, decode bitlen ((front :: rest) ++ tail) = .ok ⟨(front :: rest).length, value⟩) ∧
    (maxHpackInt < value → encode init bitlen value =
      .error (.overflowError "A value must be less than 2^24-1")) := by
  refine ⟨fun bound => ?_, fun large => if_pos large⟩
  obtain ⟨low, rest, small, written, read⟩ := encode_decode lower upper free bound
  refine ⟨init ||| UInt8.ofNat low, rest, written, ?_, front_high (by omega) small,
    fun tail => ?_⟩
  · have limit : maxHpackInt = 16777200 := rfl
    rw [encode, if_neg (Nat.not_lt.mpr bound)] at written
    simp only at written
    split at written
    · obtain ⟨-, rfl⟩ := List.cons.inj (Except.ok.inj written)
      exact Nat.succ_le_succ (Nat.zero_le _)
    · obtain ⟨-, rfl⟩ := List.cons.inj (Except.ok.inj written)
      exact Nat.succ_le_succ (length_encodeGroups_le 5 4 (by omega) (by decide))
  · rw [List.cons_append, read, List.length_cons, Nat.add_comm]

/-- The largest value behind the prefix of a literal takes five bytes. -/
theorem encode_round_trip_max :
    ∃ front rest, encode 0 4 maxHpackInt = .ok (front :: rest) ∧ (front :: rest).length = 5 ∧
      ∀ tail, decode 4 ((front :: rest) ++ tail) = .ok ⟨(front :: rest).length, maxHpackInt⟩ := by
  obtain ⟨front, rest, written, -, -, read⟩ :=
    (@encode_round_trip 0 4 (by decide) (by decide) (by decide) maxHpackInt).1 (Nat.le_refl _)
  refine ⟨front, rest, written, ?_, read⟩
  cases written
  rfl

end H2pp.Hpack.Integer

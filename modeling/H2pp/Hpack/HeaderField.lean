import H2pp.Error

/-! # Header fields

`hpack/header_field.cpp`. The constructor refuses a field that is too big for a
frame, so a field carries the bound on its size.
-/

namespace H2pp.Hpack

/-- `index_type`. -/
inductive IndexType
  | default
  | withoutIndex
  | neverIndex
  deriving DecidableEq, Repr

/-- The size of name and value together that `check_max_size` lets pass. -/
def HeaderField.Admitted (size : Nat) : Prop := size * 8 / 5 < 2 ^ 24 - 1

instance (size : Nat) : Decidable (HeaderField.Admitted size) :=
  inferInstanceAs (Decidable (_ < _))

/-- `header_field`. -/
structure HeaderField where
  name : Bytes
  value : Bytes
  type : IndexType
  admitted : HeaderField.Admitted (name.length + value.length)
  deriving DecidableEq, Repr

namespace HeaderField

/-- `header_field(name, value, type)`. -/
def create (name value : Bytes) (type : IndexType) : Except Failure HeaderField :=
  if admitted : Admitted (name.length + value.length) then .ok ⟨name, value, type, admitted⟩
  else .error (.overflowError "Header is to big to be in the frame")

/-- `hpack_size()`. -/
def hpackSize (field : HeaderField) : Nat := field.name.length + field.value.length + 32

/-- The parts of a header field are admitted. -/
@[simp] theorem create_self (field : HeaderField) :
    create field.name field.value field.type = .ok field := by
  rw [create, dif_pos field.admitted]

/-- The constructor keeps name and value. -/
theorem create_eq {name value : Bytes} {type : IndexType} {field : HeaderField}
    (created : create name value type = .ok field) : field.name = name ∧ field.value = value := by
  unfold create at created
  split at created
  · cases created
    exact ⟨rfl, rfl⟩
  · cases created

/-- The limit on a name or a value. -/
theorem length_lt {size : Nat} (admitted : Admitted size) : size < 10485760 := by
  unfold Admitted at admitted
  omega

/-- The name of a field was checked when the field was created. -/
theorem name_admitted (field : HeaderField) : Admitted field.name.length := by
  have bound := field.admitted
  unfold Admitted at bound ⊢
  omega

/-- So was its value. -/
theorem value_admitted (field : HeaderField) : Admitted field.value.length := by
  have bound := field.admitted
  unfold Admitted at bound ⊢
  omega

end HeaderField

end H2pp.Hpack

import RecordSchema.Shape.Union

/-!
# Subtyping

`isSubtype a b` holds when every value of shape `a` is also one of shape
`b`. An alternative of the left side has to fit as a whole, and the right
side has to offer one alternative that fits; integers widen to floats and
big integers, enums are texts, and whatever JSON can express is JSON.
-/

namespace RecordSchema

/-- Whether JSON can express the values of a scalar type. -/
def Scalar.isJson : Scalar → Bool
  | .text | .boolean | .int | .float | .json => true
  | _ => false

/-- Whether every value of one scalar type is a value of another one. -/
def Scalar.widensTo (s t : Scalar) : Bool :=
  match s, t with
  | s, .json => s.isJson
  | .int, .float => true
  | .int, .bigInt => true
  | _, _ => false

namespace Shape

mutual

/-- Whether JSON can express every value of the shape. -/
def isJson : Shape → Bool
  | .oneOf os => allJson os
  | .null => true
  | .enum .. => true
  | .scalar s => s.isJson
  | .listOf item => isJson item
  | .record fields => fieldsJson fields
  | _ => false

/-- Whether JSON can express the values of all the shapes. -/
def allJson : List Shape → Bool
  | [] => true
  | s :: r => isJson s && allJson r

/-- Whether JSON can express the values of all the fields. -/
def fieldsJson : List (String × Shape) → Bool
  | [] => true
  | (_, s) :: r => isJson s && fieldsJson r

end

/-- Subtyping of two shapes that differ, where neither is a union or
`anything` and they are not two lists or two records. -/
def fits : Shape → Shape → Bool
  | .scalar s, .scalar t => s.widensTo t
  | .enum _ vs, .enum _ ws => vs.all ws.contains
  | .enum .., .scalar t => t == .text || t == .json
  | .listOf a, .scalar .json => a.isJson
  | .record fs, .scalar .json => fieldsJson fs
  | .inputObject _, .filter => true
  | .record _, .filter => true
  | .listType .., .filter => true
  | _, _ => false

theorem sizeOf_fieldOf_lt (fs : List (String × Shape)) (k : String) :
    sizeOf (fieldOf fs k) < sizeOf (Shape.record fs) := by
  have small : ∀ fs : List (String × Shape), sizeOf ((fs.lookup k).getD .undefined) < 1 + sizeOf fs := by
    intro fs
    induction fs with
    | nil => simp
    | cons p r ih =>
      obtain ⟨l, s⟩ := p
      rw [List.lookup_cons]
      split
      · simp; omega
      · simp; omega
  simpa [fieldOf] using small fs

/-- Whether every value of shape `a` is a value of shape `b`. -/
def isSubtype (a b : Shape) : Bool :=
  if b = .anything then true
  else
    match a, b with
    | .oneOf os, b => os.attach.all fun ⟨o, _⟩ => isSubtype o b
    | a, .oneOf os => os.attach.any fun ⟨o, _⟩ => isSubtype a o
    | a, b =>
      if a = b then true
      else
        match a, b with
        | .listOf a, .listOf b => isSubtype a b
        | .record fs, .record gs =>
          gs.attach.all fun ⟨(k, s), _⟩ => isSubtype (fieldOf fs k) s
        | a, b => fits a b
termination_by sizeOf a + sizeOf b
decreasing_by
  · have := List.sizeOf_lt_of_mem ‹_›; simp; omega
  · have := List.sizeOf_lt_of_mem ‹_›; simp; omega
  · simp; omega
  · have h1 := List.sizeOf_lt_of_mem ‹_›
    have h2 := sizeOf_fieldOf_lt fs k
    simp at h1 h2 ⊢
    omega

end Shape

end RecordSchema

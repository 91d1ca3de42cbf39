import RecordSchema.Proofs.Shape.Union
import RecordSchema.Proofs.Success
import RecordSchema.Proofs.Value.Entries
import RecordSchema.Shape.Derive

/-!
# Shapes of columns

A column may be left out of every write, and it takes the values that it
holds singly. A legal kind has a shape for every operation; that of a
composite has one shape for each of its columns, under their names.
-/

namespace RecordSchema

namespace Shape

variable {value : Shape} {mode : Mode} {op : Operation} {v : Value}

theorem conforms_null_iff : null.conforms v = true ↔ v = .null := by
  cases v <;> simp [conforms, Value.isNull]

/-- A column may be left out of every write. -/
theorem conforms_ofColumn_unset (hop : op = .create ∨ op = .update) :
    (ofColumn value mode op).conforms .unset = true := by
  rcases hop with rfl | rfl <;> cases mode <;>
    exact conforms_union.2 ⟨.undefined, by simp, rfl⟩

/-- A column of single values takes them in every write. -/
theorem conforms_ofColumn_value (hop : op = .create ∨ op = .update) (hmode : mode ≠ .many)
    (hv : value.conforms v = true) : (ofColumn value mode op).conforms v = true := by
  rcases hop with rfl | rfl <;> cases mode <;>
    first
    | exact absurd rfl hmode
    | exact conforms_union.2 ⟨value, List.mem_cons_self, hv⟩

/-- Whether a value is one that a column holds: a single value, a list of them, or null
where that is allowed. -/
def IsHeld (value : Shape) (mode : Mode) (v : Value) : Prop :=
  match mode with
  | .many => (listOf value).conforms v = true
  | .required => value.conforms v = true
  | .nullable => value.conforms v = true ∨ v = .null

/-- What a write may give a column is what it holds. -/
theorem isHeld_of_conforms (hop : op = .create ∨ op = .update) (hset : v.isUnset = false)
    (h : (ofColumn value mode op).conforms v = true) : value.IsHeld mode v := by
  have hunset : undefined.conforms v = false := by rw [conforms, hset]
  rcases hop with rfl | rfl <;> cases mode <;>
    simpa only [ofColumn, conforms_union, List.mem_cons, List.not_mem_nil, or_false, IsHeld,
      exists_eq_or_imp, exists_eq_left, hunset, conforms_null_iff, Bool.false_eq_true] using h

/-- Output shows what a column holds. -/
theorem conforms_ofColumn_output :
    (ofColumn value mode .output).conforms v = true ↔ value.IsHeld mode v := by
  cases mode with
  | nullable =>
    simp only [ofColumn, conforms_union, List.mem_cons, List.not_mem_nil, or_false,
      exists_eq_or_imp, exists_eq_left, conforms_null_iff, IsHeld]
  | _ => exact Iff.rfl

theorem conforms_record {fields : List (String × Shape)} {v : Value} :
    conforms (.record fields) v = true ↔ ∃ es, v = .map es ∧ conformsFields fields es = true := by
  cases v <;> simp [conforms]

end Shape

namespace Storage

/-- The columns of a legal composite are legal scalar or enum columns. -/
theorem legal_of_mem {fields : List (String × Storage)} (hs : (Storage.multi fields).problems = [])
    {e : String × Storage} (he : e ∈ fields) : e.2.isScalarish = true ∧ e.2.problems = [] := by
  simp only [problems, List.append_eq_nil_iff, List.flatMap_eq_nil_iff] at hs
  obtain ⟨name, s⟩ := e
  have hsub := hs.2 _ he
  cases s with
  | scalar | enum => exact ⟨rfl, List.map_eq_nil_iff.1 hsub⟩
  | _ => cases hsub

theorem exists_columnShapeFor? {s : Storage} (hs : s.isScalarish = true) (op : Operation) :
    ∃ shape, s.columnShapeFor? op = some shape := by
  cases s <;> first | exact ⟨_, rfl⟩ | cases hs

theorem exists_columnShapes {fields : List (String × Storage)}
    (hs : (Storage.multi fields).problems = []) (op : Operation) :
    ∃ fs, (fields.mapM fun (k, s) => (s.columnShapeFor? op).map (k, ·)) = some fs := by
  refine Option.exists_mapM fun e he => ?_
  obtain ⟨shape, hshape⟩ := exists_columnShapeFor? (legal_of_mem hs he).1 op
  exact ⟨(e.1, shape), Option.map_eq_some_iff.2 ⟨shape, hshape, rfl⟩⟩

/-- A field in one column has the shape of the column. -/
theorem shape_of_columnShapeFor? {s : Storage} {op : Operation} {shape : Shape}
    (h : s.columnShapeFor? op = some shape) : s.shape op = .ok shape := by
  cases s <;> cases h <;> rfl

/-- A legal kind has a shape for every operation. -/
theorem exists_shape {s : Storage} (hs : s.problems = []) (op : Operation) :
    ∃ shape, s.shape op = .ok shape := by
  cases s with
  | multi fields =>
    obtain ⟨fs, hfs⟩ := exists_columnShapes hs op
    simp only [shape]
    split
    · exact ⟨_, rfl⟩
    · rw [hfs]
      exact ⟨_, rfl⟩
  | unsupported v => cases hs
  | _ => exact ⟨_, rfl⟩

/-- The shape of a composite has the names of its columns. -/
theorem multi_shape_ok {fields : List (String × Storage)} {op : Operation} {shape : Shape}
    (hop : op ≠ .filter) (h : (Storage.multi fields).shape op = .ok shape) :
    ∃ fs, (fields.mapM fun (k, s) => (s.columnShapeFor? op).map (k, ·)) = some fs ∧
      shape = .record fs := by
  simp only [Storage.shape, if_neg hop] at h
  split at h
  · next fs hfs =>
    cases h
    exact ⟨fs, hfs, rfl⟩
  · cases h

theorem columnShapes_cons {name : String} {s : Storage} {r : List (String × Storage)}
    {op : Operation} {fs : List (String × Shape)}
    (h : (((name, s) :: r).mapM fun (k, s) => (s.columnShapeFor? op).map (k, ·)) = some fs) :
    ∃ shape rest, s.columnShapeFor? op = some shape ∧
      (r.mapM fun (k, s) => (s.columnShapeFor? op).map (k, ·)) = some rest ∧
      fs = (name, shape) :: rest := by
  simp only [List.mapM_cons, bind, Option.bind_eq_some_iff, Option.map_eq_some_iff] at h
  obtain ⟨_, ⟨shape, hshape, rfl⟩, rest, hrest, h⟩ := h
  exact ⟨shape, rest, hshape, hrest, (Option.some.inj h).symm⟩

/-- The entries of a record conform when each column takes what is read by its name. -/
theorem conformsFields_iff {fields : List (String × Storage)} {op : Operation}
    {fs : List (String × Shape)}
    (h : (fields.mapM fun (k, s) => (s.columnShapeFor? op).map (k, ·)) = some fs)
    {es : Value.Entries} : Shape.conformsFields fs es = true ↔ ∀ e ∈ fields,
      (e.2.columnShapeFor? op).any (fun shape => shape.conforms (es.get e.1)) = true := by
  induction fields generalizing fs with
  | nil =>
    cases h
    exact ⟨fun _ => nofun, fun _ => rfl⟩
  | cons field r ih =>
    obtain ⟨name, s⟩ := field
    obtain ⟨shape, rest, hshape, hrest, rfl⟩ := columnShapes_cons h
    rw [Shape.conformsFields, Bool.and_eq_true, ih hrest, List.forall_mem_cons, hshape,
      Option.any_some]

/-! ## Values of columns -/

/-- Whether a value has the shape that the column takes in a write. -/
def takes (s : Storage) (v : Value) : Bool :=
  (s.columnShapeFor? .create).any fun shape => shape.conforms v

/-- Whether a value has the shape that the column has in output. -/
def gives (s : Storage) (v : Value) : Bool :=
  (s.columnShapeFor? .output).any fun shape => shape.conforms v

/-- Whether a value is one that a write gives a column: a value that the column takes,
or the time when it is stamped. -/
def IsGiven (s : Storage) (v : Value) : Prop :=
  v.isUnset = false ∧ (s.takes v = true ∨ s.isStamped = true ∧ ∃ t, v = .dateTime t)

/-- A column takes the same values at creation and in an update. -/
theorem columnShapeFor?_of_write {op : Operation} (hop : op = .create ∨ op = .update) (s : Storage) :
    s.columnShapeFor? op = s.columnShapeFor? .create := by
  rcases hop with rfl | rfl <;> cases s <;> rfl

theorem takes_unset {s : Storage} (hs : s.isScalarish = true) : s.takes .unset = true := by
  cases s <;> first | exact Shape.conforms_ofColumn_unset (.inl rfl) | cases hs

theorem IsGiven.isScalarish {s : Storage} {v : Value} (h : s.IsGiven v) : s.isScalarish = true := by
  obtain ⟨-, h | ⟨h, -⟩⟩ := h <;> cases s <;> first | rfl | cases h

end Storage

end RecordSchema

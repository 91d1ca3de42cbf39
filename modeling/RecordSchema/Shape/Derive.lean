import RecordSchema.Shape.Union

/-!
# Shapes of operations

The shape that each operation admits for a field, derived from what the
field stores. The derivation is a function of the kind alone.
-/

namespace RecordSchema

/-- The two directions of an ordering. -/
def Shape.direction : Shape :=
  .enum "OrderDirection" ["asc", "desc"]

/-- The shape of one scalar or enum column with values of shape `value`. -/
def Shape.ofColumn (value : Shape) (mode : Mode) : Operation → Shape
  | .create | .update =>
    match mode with
    | .nullable => union [value, .null, .undefined]
    | .required => union [value, .undefined]
    | .many => union [.listOf value, .undefined]
  | .output =>
    match mode with
    | .nullable => union [value, .null]
    | .required => value
    | .many => .listOf value
  | .order => union [.direction, .undefined]
  | .identify => if mode = .many then .anything else value
  | .filter => union [.filter, .null]

/-- Why a kind has no shape. -/
inductive ShapeFault where
  /-- A value stands in place of a kind. -/
  | unsupportedKind (v : Value)
  /-- A column of a multi field is neither scalar nor enum. -/
  | noColumn

namespace Storage

/-- The shape of the values of a scalar or enum column. -/
def columnShape? : Storage → Option Shape
  | .scalar f => some (.scalar f.scalar)
  | .enum f => some (.enum f.name f.values)
  | _ => Option.none

/-- The shape of a scalar or enum column for an operation. -/
def columnShapeFor? (s : Storage) (op : Operation) : Option Shape := do
  let value ← s.columnShape?
  let mode ← s.mode?
  return .ofColumn value mode op

/-- The shape that an operation admits for a field with this storage. -/
def shape (s : Storage) (op : Operation) : Except ShapeFault Shape :=
  match s with
  | .none => .ok .undefined
  | .scalar f => .ok (.ofColumn (.scalar f.scalar) f.mode op)
  | .enum f => .ok (.ofColumn (.enum f.name f.values) f.mode op)
  | .relation r =>
    .ok <| match op with
      | .create | .update => .union [.relationInput r.list r.mode, .undefined]
      | .output =>
        match r.mode with
        | .one => .relatedItem r.list
        | .many => .relatedItems r.list
      | .order => .undefined
      | .identify => .anything
      | .filter => .union [.filter, .null]
  | .multi fields =>
    if op = .filter then .ok (.union [.filter, .null])
    else
      match fields.mapM fun (k, s) => (s.columnShapeFor? op).map (k, ·) with
      | some fs => .ok (.record fs)
      | Option.none => .error .noColumn
  | .unsupported v => .error (.unsupportedKind v)

end Storage

end RecordSchema

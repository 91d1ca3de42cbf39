import RecordSchema.Shape.Union
import RecordSchema.TypeExpr
import RecordSchema.Value.Printer

/-!
# Shapes of declared types

The shape of the values that an argument of a declared type yields. The
types with a shape are the scalar types, enums, input classes, lists of
these, and each of them or null. A nullable argument may also be left
out, unless it has a default.
-/

namespace RecordSchema

/-- Why a declared type has no shape. -/
inductive TypeFault where
  /-- A union of several types. -/
  | union (t : TypeExpr)
  /-- A list type without an item type. -/
  | noItem (t : TypeExpr)
  | noShape (t : TypeExpr)

def TypeFault.message : TypeFault → String
  | .union t => "Union arguments are not supported: " ++ t.describe
  | .noItem t => "List argument needs an item type: " ++ t.describe
  | .noShape t => "Cannot derive a value shape from argument type " ++ t.describe

def ScalarType.scalar : ScalarType → Scalar
  | .text => .text
  | .boolean => .boolean
  | .integer => .int
  | .float => .float
  | .dateTime => .dateTime
  | .hostDecimal => .decimal
  | .decimal => .decimal
  | .bigInt => .bigInt
  | .json => .json

namespace TypeExpr

mutual

/-- The shape of the values of a type that is not nullable. -/
def valueShape : TypeExpr → Except TypeFault Shape
  | .scalar s => .ok (.scalar s.scalar)
  | .annotated t => valueShape t
  | .bareList s => .error (.noItem (.bareList s))
  | .list _ item => itemShape item
  | .tuple [] => .error (.noItem (.tuple []))
  | .tuple (item :: _) => itemShape item
  | .enum _ name members => .ok (.enum name (members.map fun m => m.2.display))
  | .inputClass _ name => .ok (.inputObject name)
  | t => .error (.noShape t)
termination_by t => 2 * sizeOf t

/-- The shape of a list with items of a type. -/
def itemShape : TypeExpr → Except TypeFault Shape
  | .annotated t => itemShape t
  | .union spelling ms =>
    match h : ms.filter fun m => !m.isNull with
    | [m] =>
      have : sizeOf m < sizeOf ms :=
        List.sizeOf_lt_of_mem (List.mem_filter.1 (h ▸ List.mem_singleton_self m)).1
      (valueShape m).map fun s =>
        .listOf (if ms.any isNull then .union [s, .null] else s)
    | _ => .error (.union (.union spelling ms))
  | t => (valueShape t).map .listOf
termination_by t => 2 * sizeOf t + 1

end

/-- The shape of the values that an argument of a type yields. -/
def argumentShape (t : TypeExpr) (hasDefault : Bool) : Except TypeFault Shape := do
  let (value, nullable) ← t.plain.splitNull.mapError TypeFault.union
  let shape ← value.valueShape
  return if !nullable then shape
    else if hasDefault then .union [shape, .null]
    else .union [shape, .null, .undefined]

end TypeExpr

end RecordSchema

import RecordSchema.Shape.Printer

/-!
# Unions

`union` joins shapes into one: alternatives of unions are taken apart,
every alternative is kept once, and a single alternative stands for
itself. The alternatives are kept in the order of their printed forms,
which makes two unions of the same alternatives the same term.
-/

namespace RecordSchema.Shape

/-- The members of a set of shapes, each once and in order. -/
def setOf (shapes : List Shape) : List Shape :=
  Sorting.sort (fun a b => a.describe ≤ b.describe) shapes.eraseDups

def alternatives : Shape → List Shape
  | .oneOf os => os
  | s => [s]

def union (shapes : List Shape) : Shape :=
  match setOf (shapes.flatMap alternatives) with
  | [s] => s
  | os => .oneOf os

/-- The shape less some of its alternatives; `undefined` when none is left. -/
def without (shape : Shape) (removed : List Shape) : Shape :=
  match shape with
  | .oneOf os =>
    match os.filter fun o => !removed.contains o with
    | [] => .undefined
    | kept => union kept
  | s => if removed.contains s then .undefined else s

/-- The shape of a field of a record, `undefined` when it has none. -/
def fieldOf (fields : List (String × Shape)) (key : String) : Shape :=
  (fields.lookup key).getD .undefined

end RecordSchema.Shape

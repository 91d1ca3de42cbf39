import RecordSchema.Relation.Input
import RecordSchema.Shape.Union

/-!
# Shapes of relation input

The input types through which other lists link to a list: a new record
or a unique filter for one link, lists of them for many, and a filter
for each quantifier. Every verb may be left out.
-/

namespace RecordSchema

/-- The shapes of the input types that link to a list. -/
structure RelationShapes where
  oneCreate : Shape
  oneUpdate : Shape
  manyFilter : Shape
  manyCreate : Shape
  manyUpdate : Shape

def Shape.orLeftOut (s : Shape) : Shape :=
  union [s, .undefined]

/-- The shapes of the input types that link to the list `target`. -/
def RelationShapes.to (target : String) : RelationShapes :=
  let create := Shape.listType target "create"
  let unique := Shape.listType target "uniqueWhere"
  let matching := Shape.listType target "where"
  let one := [("create", create.orLeftOut), ("connect", unique.orLeftOut)]
  { oneCreate := .record one
    oneUpdate := .record (one ++ [("disconnect", (Shape.scalar .boolean).orLeftOut)])
    manyFilter := .record <| (Spelled.all : List Quantifier).map fun q =>
      (Spelled.spelling q, matching.orLeftOut)
    manyCreate := .record [
      ("create", (Shape.listOf create).orLeftOut),
      ("connect", (Shape.listOf unique).orLeftOut)]
    manyUpdate := .record [
      ("connect", (Shape.listOf unique).orLeftOut),
      ("create", (Shape.listOf create).orLeftOut),
      ("disconnect", (Shape.listOf unique).orLeftOut),
      ("set", (Shape.listOf unique).orLeftOut)] }

end RecordSchema

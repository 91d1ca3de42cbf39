import RecordSchema.Field.Type
import RecordSchema.Request.Search
import RecordSchema.Schema.Names

/-!
# Arguments of list queries

The arguments that a list query declares, by their names in the API. An
omitted filter is the empty filter, and an omitted ordering the empty
ordering.
-/

namespace RecordSchema

namespace ListNames

def inputType (name : String) : TypeExpr := .inputClass "" name

def filterArg (n : ListNames) : Arg where
  type := inputType n.filterInput
  default := .map []
  description := some "Filter; omitted or empty matches every record."

/-- The arguments of a list query over the list. -/
def searchArgs (n : ListNames) : List (String × Arg) := [
  ("where", n.filterArg),
  ("orderBy", {
    type := .list .typing (inputType n.orderInput)
    default := .list []
    description := some "Ordered sort keys, one field per entry." }),
  ("take", {
    type := (TypeExpr.scalar .integer).optional
    default := .null
    description := some "Maximum number of records; omitted means unlimited." }),
  ("skip", {
    type := .scalar .integer
    default := .int 0
    description := some "Number of records to skip." }),
  ("cursor", {
    type := (inputType n.uniqueInput).optional
    default := .null
    description := some "Resume immediately after this record under orderBy." })]

end ListNames

/-- The arguments of a list query as they were received, by name. -/
def SearchArgs.received (args : List (String × Value)) : SearchArgs where
  filter := (args.lookup "where").getD .null
  order := (args.lookup "orderBy").getD .null
  take := (args.lookup "take").getD .null
  skip := (args.lookup "skip").getD (.int 0)
  cursor := (args.lookup "cursor").getD .null

end RecordSchema

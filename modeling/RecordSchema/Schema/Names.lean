import RecordSchema.Text.Name
import RecordSchema.Text.Plural

/-!
# Names of a list

The names that the API generates for one list: query fields in the
singular and plural, mutations, and input types. A word without a plural
of its own is told apart by `all`.
-/

namespace RecordSchema

/-- The generated names of a list. -/
structure ListNames where
  key : String
  singular : String
  plural : String
deriving DecidableEq

namespace ListNames

/-- The names of the list `key`; `plural` overrides the plural form. -/
def ofKey (key : String) (plural : Option String) : ListNames :=
  let singular := Text.lowerFirst key
  let regular := if singular.isEmpty then singular else Plural.pluralize singular
  let plural := match plural with
    | some p => if p.isEmpty then regular else Text.lowerFirst p
    | none => regular
  ⟨key, singular, if plural == singular then "all" ++ key else plural⟩

def count (n : ListNames) : String := n.plural ++ "Count"

def create (n : ListNames) : String := "create" ++ n.key

def update (n : ListNames) : String := "update" ++ n.key

/-- The type of records. -/
def output (n : ListNames) : String := n.key

/-- The data of a new record. -/
def createInput (n : ListNames) : String := n.key ++ "CreateInput"

/-- The changes to a record. -/
def updateInput (n : ListNames) : String := n.key ++ "UpdateInput"

/-- The filter over records. -/
def filterInput (n : ListNames) : String := n.key ++ "WhereInput"

/-- The filter that identifies one record. -/
def uniqueInput (n : ListNames) : String := n.key ++ "WhereUniqueInput"

def orderInput (n : ListNames) : String := n.key ++ "OrderByInput"

/-- A link to one record, in a new record. -/
def oneCreateInput (n : ListNames) : String := n.key ++ "RelateToOneForCreateInput"

/-- A link to one record, in changes. -/
def oneUpdateInput (n : ListNames) : String := n.key ++ "RelateToOneForUpdateInput"

/-- A quantified filter over related records. -/
def manyFilterInput (n : ListNames) : String := n.key ++ "ManyRelationFilter"

/-- Links to many records, in a new record. -/
def manyCreateInput (n : ListNames) : String := n.key ++ "RelateToManyForCreateInput"

/-- Links to many records, in changes. -/
def manyUpdateInput (n : ListNames) : String := n.key ++ "RelateToManyForUpdateInput"

end ListNames

end RecordSchema

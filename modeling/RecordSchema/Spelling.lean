/-!
# Spelled vocabularies

Closed vocabularies whose members have one spelling each. A member is
found by its exact spelling.
-/

namespace RecordSchema

/-- A closed vocabulary with a spelling for each member. -/
class Spelled (α : Type) where
  /-- Every member, in the order in which messages list them. -/
  all : List α
  /-- How a member is written. -/
  spelling : α → String

namespace Spelled

def ofText? {α : Type} [Spelled α] (s : String) : Option α :=
  (all : List α).find? fun a => spelling a == s

end Spelled

end RecordSchema

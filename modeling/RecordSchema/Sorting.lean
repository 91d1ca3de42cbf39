/-!
# Sorting

Lists in ascending order. Members that are equal in the order keep the
order that they had.
-/

namespace RecordSchema.Sorting

variable {α : Type}

/-- Puts a member in front of the first one that does not come before it. -/
def insert (le : α → α → Bool) (a : α) : List α → List α
  | [] => [a]
  | b :: r => if le a b then a :: b :: r else b :: insert le a r

/-- The members in ascending order. -/
def sort (le : α → α → Bool) : List α → List α
  | [] => []
  | a :: r => insert le a (sort le r)

end RecordSchema.Sorting

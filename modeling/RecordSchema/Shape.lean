import RecordSchema.Field.Kind

/-!
# Shapes

A shape describes the set of values that an operation accepts or
produces for one field. Shapes are a closed set of variants, so that the
subtype relation and the runtime check are plain recursion.

The alternatives of `oneOf` form a set. `Shape.union` builds such a set
in one order, with each alternative once, so equal sets are equal terms.
`Storage.shape` derives the shape of every operation from the kind of
storage.
-/

namespace RecordSchema

/-! ## Operations -/

/-- What is done with a field. -/
inductive Operation where
  | create
  | update
  | filter
  | identify
  | order
  | output
deriving DecidableEq, Inhabited

instance : Spelled Operation where
  all := [.create, .update, .filter, .identify, .order, .output]
  spelling
    | .create => "create"
    | .update => "update"
    | .filter => "where"
    | .identify => "uniqueWhere"
    | .order => "orderBy"
    | .output => "output"

def Operation.name (o : Operation) : String := Spelled.spelling o

/-- The name of an operation in capitals. -/
def Operation.constant : Operation → String
  | .create => "CREATE"
  | .update => "UPDATE"
  | .filter => "WHERE"
  | .identify => "UNIQUE_WHERE"
  | .order => "ORDER_BY"
  | .output => "OUTPUT"

def Operation.isInput : Operation → Bool
  | .output => false
  | _ => true

/-! ## Variants -/

/-- A set of values. -/
inductive Shape where
  /-- Not sent. -/
  | undefined
  | null
  | anything
  /-- A filter on one field; any input object will do. -/
  | filter
  | scalar (s : Scalar)
  | enum (name : String) (values : List String)
  | listOf (item : Shape)
  /-- The union of a set of shapes. -/
  | oneOf (options : List Shape)
  | record (fields : List (String × Shape))
  /-- An input object that is never looked into. -/
  | inputObject (name : String)
  /-- One of the generated input types of a list. -/
  | listType (list type : String)
  | relationInput (list : String) (mode : Cardinality)
  /-- An accessor that yields the related record. -/
  | relatedItem (list : String)
  /-- An accessor that finds and counts related records. -/
  | relatedItems (list : String)
deriving Inhabited

namespace Shape

/-! ## Equality -/

mutual

/-- Decides equality of shapes. -/
def decEq : (a b : Shape) → Decidable (a = b)
  | .undefined, .undefined => isTrue rfl
  | .undefined, .null | .undefined, .anything | .undefined, .filter | .undefined, .scalar ..
  | .undefined, .enum .. | .undefined, .listOf .. | .undefined, .oneOf ..
  | .undefined, .record .. | .undefined, .inputObject .. | .undefined, .listType ..
  | .undefined, .relationInput .. | .undefined, .relatedItem .. | .undefined, .relatedItems .. => isFalse nofun
  | .null, .null => isTrue rfl
  | .null, .undefined | .null, .anything | .null, .filter | .null, .scalar .. | .null, .enum ..
  | .null, .listOf .. | .null, .oneOf .. | .null, .record .. | .null, .inputObject ..
  | .null, .listType .. | .null, .relationInput .. | .null, .relatedItem ..
  | .null, .relatedItems .. => isFalse nofun
  | .anything, .anything => isTrue rfl
  | .anything, .undefined | .anything, .null | .anything, .filter | .anything, .scalar ..
  | .anything, .enum .. | .anything, .listOf .. | .anything, .oneOf .. | .anything, .record ..
  | .anything, .inputObject .. | .anything, .listType .. | .anything, .relationInput ..
  | .anything, .relatedItem .. | .anything, .relatedItems .. => isFalse nofun
  | .filter, .filter => isTrue rfl
  | .filter, .undefined | .filter, .null | .filter, .anything | .filter, .scalar ..
  | .filter, .enum .. | .filter, .listOf .. | .filter, .oneOf .. | .filter, .record ..
  | .filter, .inputObject .. | .filter, .listType .. | .filter, .relationInput ..
  | .filter, .relatedItem .. | .filter, .relatedItems .. => isFalse nofun
  | .scalar a1, .scalar b1 =>
    decidable_of_iff (a1 = b1) (by simp)
  | .scalar .., .undefined | .scalar .., .null | .scalar .., .anything | .scalar .., .filter
  | .scalar .., .enum .. | .scalar .., .listOf .. | .scalar .., .oneOf ..
  | .scalar .., .record .. | .scalar .., .inputObject .. | .scalar .., .listType ..
  | .scalar .., .relationInput .. | .scalar .., .relatedItem .. | .scalar .., .relatedItems .. => isFalse nofun
  | .enum a1 a2, .enum b1 b2 =>
    decidable_of_iff (a1 = b1 ∧ a2 = b2) (by simp)
  | .enum .., .undefined | .enum .., .null | .enum .., .anything | .enum .., .filter
  | .enum .., .scalar .. | .enum .., .listOf .. | .enum .., .oneOf .. | .enum .., .record ..
  | .enum .., .inputObject .. | .enum .., .listType .. | .enum .., .relationInput ..
  | .enum .., .relatedItem .. | .enum .., .relatedItems .. => isFalse nofun
  | .listOf a1, .listOf b1 =>
    match decEq a1 b1 with | isTrue h => isTrue (h ▸ rfl) | isFalse h => isFalse (h ∘ listOf.inj)
  | .listOf .., .undefined | .listOf .., .null | .listOf .., .anything | .listOf .., .filter
  | .listOf .., .scalar .. | .listOf .., .enum .. | .listOf .., .oneOf ..
  | .listOf .., .record .. | .listOf .., .inputObject .. | .listOf .., .listType ..
  | .listOf .., .relationInput .. | .listOf .., .relatedItem .. | .listOf .., .relatedItems .. => isFalse nofun
  | .oneOf a1, .oneOf b1 =>
    match decEqList a1 b1 with | isTrue h => isTrue (h ▸ rfl) | isFalse h => isFalse (h ∘ oneOf.inj)
  | .oneOf .., .undefined | .oneOf .., .null | .oneOf .., .anything | .oneOf .., .filter
  | .oneOf .., .scalar .. | .oneOf .., .enum .. | .oneOf .., .listOf .. | .oneOf .., .record ..
  | .oneOf .., .inputObject .. | .oneOf .., .listType .. | .oneOf .., .relationInput ..
  | .oneOf .., .relatedItem .. | .oneOf .., .relatedItems .. => isFalse nofun
  | .record a1, .record b1 =>
    match decEqFields a1 b1 with | isTrue h => isTrue (h ▸ rfl) | isFalse h => isFalse (h ∘ record.inj)
  | .record .., .undefined | .record .., .null | .record .., .anything | .record .., .filter
  | .record .., .scalar .. | .record .., .enum .. | .record .., .listOf ..
  | .record .., .oneOf .. | .record .., .inputObject .. | .record .., .listType ..
  | .record .., .relationInput .. | .record .., .relatedItem .. | .record .., .relatedItems .. => isFalse nofun
  | .inputObject a1, .inputObject b1 =>
    decidable_of_iff (a1 = b1) (by simp)
  | .inputObject .., .undefined | .inputObject .., .null | .inputObject .., .anything
  | .inputObject .., .filter | .inputObject .., .scalar .. | .inputObject .., .enum ..
  | .inputObject .., .listOf .. | .inputObject .., .oneOf .. | .inputObject .., .record ..
  | .inputObject .., .listType .. | .inputObject .., .relationInput ..
  | .inputObject .., .relatedItem .. | .inputObject .., .relatedItems .. => isFalse nofun
  | .listType a1 a2, .listType b1 b2 =>
    decidable_of_iff (a1 = b1 ∧ a2 = b2) (by simp)
  | .listType .., .undefined | .listType .., .null | .listType .., .anything
  | .listType .., .filter | .listType .., .scalar .. | .listType .., .enum ..
  | .listType .., .listOf .. | .listType .., .oneOf .. | .listType .., .record ..
  | .listType .., .inputObject .. | .listType .., .relationInput ..
  | .listType .., .relatedItem .. | .listType .., .relatedItems .. => isFalse nofun
  | .relationInput a1 a2, .relationInput b1 b2 =>
    decidable_of_iff (a1 = b1 ∧ a2 = b2) (by simp)
  | .relationInput .., .undefined | .relationInput .., .null | .relationInput .., .anything
  | .relationInput .., .filter | .relationInput .., .scalar .. | .relationInput .., .enum ..
  | .relationInput .., .listOf .. | .relationInput .., .oneOf ..
  | .relationInput .., .record .. | .relationInput .., .inputObject ..
  | .relationInput .., .listType .. | .relationInput .., .relatedItem ..
  | .relationInput .., .relatedItems .. => isFalse nofun
  | .relatedItem a1, .relatedItem b1 =>
    decidable_of_iff (a1 = b1) (by simp)
  | .relatedItem .., .undefined | .relatedItem .., .null | .relatedItem .., .anything
  | .relatedItem .., .filter | .relatedItem .., .scalar .. | .relatedItem .., .enum ..
  | .relatedItem .., .listOf .. | .relatedItem .., .oneOf .. | .relatedItem .., .record ..
  | .relatedItem .., .inputObject .. | .relatedItem .., .listType ..
  | .relatedItem .., .relationInput .. | .relatedItem .., .relatedItems .. => isFalse nofun
  | .relatedItems a1, .relatedItems b1 =>
    decidable_of_iff (a1 = b1) (by simp)
  | .relatedItems .., .undefined | .relatedItems .., .null | .relatedItems .., .anything
  | .relatedItems .., .filter | .relatedItems .., .scalar .. | .relatedItems .., .enum ..
  | .relatedItems .., .listOf .. | .relatedItems .., .oneOf .. | .relatedItems .., .record ..
  | .relatedItems .., .inputObject .. | .relatedItems .., .listType ..
  | .relatedItems .., .relationInput .. | .relatedItems .., .relatedItem .. => isFalse nofun

/-- Decides equality of lists of shapes. -/
def decEqList : (a b : List Shape) → Decidable (a = b)
  | [], [] => isTrue rfl
  | [], _ :: _ => isFalse nofun
  | _ :: _, [] => isFalse nofun
  | a :: r, b :: s =>
    match decEq a b, decEqList r s with
    | isTrue h, isTrue k => isTrue (h ▸ k ▸ rfl)
    | isFalse h, _ => isFalse fun e => h (List.cons.inj e).1
    | _, isFalse k => isFalse fun e => k (List.cons.inj e).2

/-- Decides equality of fields. -/
def decEqFields : (a b : List (String × Shape)) → Decidable (a = b)
  | [], [] => isTrue rfl
  | [], _ :: _ => isFalse nofun
  | _ :: _, [] => isFalse nofun
  | (k, a) :: r, (l, b) :: s =>
    match (inferInstance : Decidable (k = l)), decEq a b, decEqFields r s with
    | isTrue h, isTrue i, isTrue j => isTrue (h ▸ i ▸ j ▸ rfl)
    | isFalse h, _, _ => isFalse fun e => h (Prod.mk.inj (List.cons.inj e).1).1
    | _, isFalse i, _ => isFalse fun e => i (Prod.mk.inj (List.cons.inj e).1).2
    | _, _, isFalse j => isFalse fun e => j (List.cons.inj e).2

end

instance : DecidableEq Shape := decEq

end Shape

end RecordSchema

import RecordSchema.Field.Kind
import RecordSchema.Text.Quoted

/-!
# Relation plans

Where the links of every relation are kept. A link to one record is a
key column of the own table, unless the other side of a one-to-one
relation owns the key; a link to many is a key column of the target's
table when the other side links to one, and rows of a join table
otherwise. The two sides of a relation point at each other, and
`Relations.plan` gives both sides plans that name the same column or the
same table.
-/

namespace RecordSchema

/-- The two columns of a join table. -/
inductive JoinSide where
  | first
  | second
deriving DecidableEq, Inhabited

def JoinSide.column : JoinSide → String
  | .first => "A"
  | .second => "B"

/-- The opposite column. -/
def JoinSide.other : JoinSide → JoinSide
  | .first => .second
  | .second => .first

/-- Where the links of a relation are kept. -/
inductive Link where
  /-- A column of the own table holds the id of the target. -/
  | ownKey (column : String) (unique : Bool)
  /-- A column of the target's table holds the own id. -/
  | targetKey (column : String) (unique : Bool)
  /-- Rows of a join table hold the own id at `side` and the target's id at
  the other side. -/
  | join (table : String) (side : JoinSide)
deriving DecidableEq, Inhabited

/-- The plan of one relation field. -/
structure RelationPlan where
  list : String
  field : String
  target : String
  mode : Cardinality
  link : Link
deriving DecidableEq, Inhabited

/-- What is wrong with a relation. -/
inductive RelationProblem where
  | noTarget (target : String)
  | noBackField (target back : String)
  | notMutual (target back : String)
  /-- Both sides of a one-to-one relation own the key, or neither does. -/
  | keyOwner
  | joinNames (own other : String)

/-- The wording of a problem of the relation at `path`. -/
def RelationProblem.message (path : String) : RelationProblem → String
  | .noTarget t => path ++ ": relation target list " ++ Text.quote t ++ " does not exist"
  | .noBackField t b => path ++ ": " ++ t ++ "." ++ b ++ " is not a relation field"
  | .notMutual t b => path ++ ": " ++ t ++ "." ++ b ++ " must point back to " ++ path
  | .keyOwner => path ++ ": exactly one side of a one-to-one relation must set foreign_key"
  | .joinNames own other =>
    path ++ ": relation_name " ++ Text.quote own ++ " differs from the other side's "
      ++ Text.quote other

/-- A text that is not empty. -/
def nonempty? : Option String → Option String
  | some s => if s.isEmpty then none else some s
  | none => none

/-- The key column of the relation field `key`. -/
def RelationField.keyColumn (r : RelationField) (key : String) : String :=
  ((r.foreignKey.bind fun k => nonempty? k.map).getD (key ++ "_id"))

/-- The order of field paths: by list, then by field. -/
def pathBefore (a b : String × String) : Bool :=
  a.1 < b.1 || (a.1 == b.1 && a.2 ≤ b.2)

namespace RelationField

/-- The plan of a to-one relation; `other` is the other side. -/
def planOne (r : RelationField) (field : String) (other : Option (String × RelationField)) :
    Except RelationProblem Link :=
  match other with
  | some (otherField, o) =>
    match o.mode with
    | .one =>
      if r.ownsForeignKey == o.ownsForeignKey then .error .keyOwner
      else if r.ownsForeignKey then .ok (.ownKey (r.keyColumn field) true)
      else .ok (.targetKey (o.keyColumn otherField) true)
    | .many => .ok (.ownKey (r.keyColumn field) false)
  | none => .ok (.ownKey (r.keyColumn field) false)

/-- The plan of a to-many relation; `other` is the other side. -/
def planMany (r : RelationField) (list field : String) (other : Option (String × RelationField)) :
    Except RelationProblem Link :=
  match other with
  | none => .ok (.join ((nonempty? r.relationName).getD ("_" ++ list ++ "_" ++ field)) .first)
  | some (otherField, o) =>
    match o.mode with
    | .one => .ok (.targetKey (o.keyColumn otherField) false)
    | .many =>
      match nonempty? r.relationName, nonempty? o.relationName with
      | some a, some b =>
        if a != b then .error (.joinNames a b)
        else .ok (.join a (if pathBefore (list, field) (r.list, otherField) then .first else .second))
      | a, b =>
        let isFirst := pathBefore (list, field) (r.list, otherField)
        let (l, f) := if isFirst then (list, field) else (r.list, otherField)
        .ok (.join ((a.or b).getD ("_" ++ l ++ "_" ++ f)) (if isFirst then .first else .second))

/-- The plan of a relation whose other side is known. -/
def link (r : RelationField) (list field : String) (other : Option (String × RelationField)) :
    Except RelationProblem Link :=
  match r.mode with
  | .one => r.planOne field other
  | .many => r.planMany list field other

end RelationField

/-- The storage kinds of the fields of every list. -/
abbrev Relations := List (String × List (String × Storage))

namespace Relations

def relation? (rs : Relations) (list field : String) : Option RelationField :=
  match (rs.lookup list).bind fun fields => fields.lookup field with
  | some (.relation r) => some r
  | _ => none

/-- The other side of a relation, checked to point back; none for a relation
with one side. -/
def otherSide (rs : Relations) (list field : String) (r : RelationField) :
    Except RelationProblem (Option (String × RelationField)) :=
  if (rs.lookup r.list).isNone then .error (.noTarget r.list)
  else
    match r.field with
    | none => .ok none
    | some back =>
      match rs.relation? r.list back with
      | none => .error (.noBackField r.list back)
      | some o =>
        if o.list == list && o.field == some field then .ok (some (back, o))
        else .error (.notMutual r.list back)

def planOf (rs : Relations) (list field : String) (r : RelationField) :
    Except RelationProblem RelationPlan := do
  let other ← rs.otherSide list field r
  let link ← r.link list field other
  return ⟨list, field, r.list, r.mode, link⟩

/-- The outcome for one field: none when it is no relation. -/
def outcome? (rs : Relations) (list field : String) (s : Storage) :
    Option (Except String RelationPlan) :=
  match s with
  | .relation r => some ((rs.planOf list field r).mapError (·.message (list ++ "." ++ field)))
  | _ => none

/-- The outcomes of all relations, in the order of the fields. -/
def outcomes (rs : Relations) : List (Except String RelationPlan) :=
  rs.flatMap fun (list, fields) => fields.filterMap fun (field, s) => rs.outcome? list field s

/-- The plans of all relations and the problems of those without one. -/
def plan (rs : Relations) : List RelationPlan × List String :=
  let os := rs.outcomes
  (os.filterMap Except.toOption,
    os.filterMap fun
      | .error p => some p
      | .ok _ => none)

end Relations

end RecordSchema

import RecordSchema.Store.Query

/-!
# Links

Connecting and disconnecting records. A link that a key column holds is
made by writing the column: of the own row, where only the last of
several targets counts, or of the targets' rows. A key column that holds
no value twice is emptied elsewhere first, so that the link moves. A
link in a join table is a pair that is there once.
-/

namespace RecordSchema

namespace Store

/-- Empties a key column in the rows that satisfy a condition. -/
def clearKey (s : Store) (list column : String) (p : Row → Bool) : Store :=
  s.modifyRows list p fun r => r.set column .null

/-- Writes a key column in the rows that satisfy a condition. -/
def writeKey (s : Store) (list column : String) (key : Int) (p : Row → Bool) : Store :=
  s.modifyRows list p fun r => r.set column (.int key)

/-- The links of a join table after adding those of an owner to targets. -/
def addPairs (pairs : List (Int × Int)) (side : JoinSide) (owner : Int) (targets : List Int) :
    List (Int × Int) :=
  let pair (t : Int) : Int × Int := match side with
    | .first => (owner, t)
    | .second => (t, owner)
  pairs ++ (targets.eraseDups.map pair).filter fun p => !pairs.contains p

/-- Whether a link of a join table is one of an owner to certain targets. -/
def isPairOf (side : JoinSide) (owner : Int) (among : Int → Bool) (p : Int × Int) : Bool :=
  match side with
  | .first => p.1 == owner && among p.2
  | .second => p.2 == owner && among p.1

/-- Links a record to targets. -/
def connect (s : Store) (plan : RelationPlan) (id : Int) (targets : List Int) : Store :=
  match targets.getLast? with
  | none => s
  | some last =>
    match plan.link with
    | .ownKey column unique =>
      let s := if unique then s.clearKey plan.list column fun r => (r.cell column).isKey last else s
      s.writeKey plan.list column last fun r => r.id == id
    | .targetKey column _ =>
      match plan.mode with
      | .one =>
        let s := s.clearKey plan.target column fun r => (r.cell column).isKey id
        s.writeKey plan.target column id fun r => r.id == last
      | .many => s.writeKey plan.target column id fun r => targets.contains r.id
    | .join table side => s.setPairs table (addPairs (s.pairs table) side id targets)

/-- Removes the links of a record to the certain targets. -/
def unlink (s : Store) (plan : RelationPlan) (id : Int) (among : Int → Bool) : Store :=
  match plan.link with
  | .ownKey column _ =>
    s.clearKey plan.list column fun r =>
      r.id == id && match r.cell column with
        | .int t => among t
        | _ => false
  | .targetKey column _ =>
    s.clearKey plan.target column fun r => (r.cell column).isKey id && among r.id
  | .join table side =>
    s.setPairs table ((s.pairs table).filter fun p => !isPairOf side id among p)

/-- Removes the links of a record to targets, or all of its links. -/
def disconnect (s : Store) (plan : RelationPlan) (id : Int) (targets : Option (List Int)) : Store :=
  s.unlink plan id fun t => targets.all fun ts => ts.contains t

/-- Links a record to exactly the targets. -/
def setRelated (s : Store) (plan : RelationPlan) (id : Int) (targets : List Int) : Store :=
  (s.disconnect plan id none).connect plan id targets

end Store

end RecordSchema

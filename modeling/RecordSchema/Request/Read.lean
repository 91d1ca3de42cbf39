import RecordSchema.Field.Arguments
import RecordSchema.Request.Write

/-!
# Reading records

Queries on lists and relations, and the output values of a record. The
output of a field never hangs on the output of another: a field that
fails is null, with its fault beside it.
-/

namespace RecordSchema

/-- A store as a request sees it. -/
structure Reader where
  db : Database
  store : Store
  context : Value := .null

namespace Reader

def records (r : Reader) (list : String) (rows : List Row) : List Record :=
  rows.map (r.db.record list)

/-! ## Queries -/

def findMany (r : Reader) (list : String) (q : Search) : Except Fault (List Record) := do
  let q ← Resolve.search r.db.schema r.context r.db.depth list q
  return r.records list (← r.db.findMany r.store list q)

def findOne (r : Reader) (list : String) (filter : Value) : Except Fault (Option Record) := do
  let unique ← Resolve.identify r.db.schema r.context list filter
  return (← r.db.findOne r.store list unique).map (r.db.record list)

/-- The number of records that a filter selects. -/
def count (r : Reader) (list : String) (filter : Value) : Except Fault Nat := do
  let filter ← Resolve.filter r.db.schema r.context r.db.depth list filter
  r.db.count r.store list filter

/-! ## Relations -/

def relatedOne (r : Reader) (list field : String) (id : Int) : Except Fault (Option Record) := do
  let plan ← r.db.plan list field
  let rows ← r.db.findRelated r.store list field id { take := some 1 }
  return rows.head?.map (r.db.record plan.target)

def relatedMany (r : Reader) (list field : String) (id : Int) (q : Search) : Except Fault (List Record) := do
  let plan ← r.db.plan list field
  let q ← Resolve.search r.db.schema r.context r.db.depth plan.target q
  return r.records plan.target (← r.db.findRelated r.store list field id q)

/-- The number of linked records that a filter selects. -/
def relatedCount (r : Reader) (list field : String) (id : Int) (filter : Value) : Except Fault Nat := do
  let plan ← r.db.plan list field
  let filter ← Resolve.filter r.db.schema r.context r.db.depth plan.target filter
  r.db.countRelated r.store list field id filter

/-! ## Output -/

/-- The value of a field of a record, as output takes it. -/
def fieldValue (list : String) (f : Field) (record : Record) : Except Fault Value :=
  match f.storage with
  | .none => .ok .unset
  | .relation rel =>
    match record.value? "id" with
    | some id => .ok (.related rel.mode list f.key id)
    | none => .error (.key .unknown)
  | _ => .ok ((record.value? f.key).getD .null)

/-- The record or records that an accessor leads to. -/
def follow (r : Reader) (accessor : Value) : Except Fault Value :=
  match accessor with
  | .related _ list field (.int id) => do
    return ((← r.relatedOne list field id).map Value.map).getD .null
  | .related .. => .ok .null
  | _ => .error .wrongKind

/-- How outputs of relations reach linked records. -/
def reach (r : Reader) : Field.Reach where
  one := r.follow
  many accessor args := do
    let q ← Search.ofArgs (.received args)
    match accessor with
    | .related _ list field (.int id) => return .list ((← r.relatedMany list field id q).map .map)
    | .related .. => return .list []
    | _ => throw .wrongKind
  count accessor args := do
    let q ← Search.ofArgs { filter := (args.lookup "where").getD .null }
    match accessor with
    | .related _ list field (.int id) => return .int (← r.relatedCount list field id q.filter)
    | .related .. => return .int 0
    | _ => throw .wrongKind

/-- What a resolver of an output of the record is called with. -/
def call (r : Reader) (record : Record) (v : Value) (args : List (String × Value)) : Call where
  value := v
  item := .map record
  context := r.context
  args := args

/-- The output values of a record and the faults of the fields that fail. -/
structure Output where
  values : List (String × Value) := []
  faults : List (String × Fault) := []

/-- The fault of one output; a fault that is not one of resolution is put under
the path of the field. -/
def outputFault (f : Field) (fault : Fault) : Fault :=
  if fault.isResolution then fault else .resolution f.path (.stated fault.message) [fault]

def fieldOutput (r : Reader) (f : Field) (record : Record) (v : Value) : Except Fault Output :=
  match f.resolveOutput r.reach (r.call record v []) with
  | .ok v => .ok { values := [(f.key, v)] }
  | .error fault =>
    if fault.isOwn then
      .ok { values := [(f.key, .null)], faults := [(f.key, outputFault f fault)] }
    else .error fault

def outputs (r : Reader) (record : Record) : List (Field × Value) → Except Fault Output
  | [] => .ok {}
  | (f, v) :: rest => do
    let here ← r.fieldOutput f record v
    let more ← r.outputs record rest
    return { values := here.values ++ more.values, faults := here.faults ++ more.faults }

def output (r : Reader) (list : String) (record : Record) : Except Fault Output := do
  let l ← Resolve.listOf r.db.schema list
  let fields := (l.fields.map Prod.snd).filter fun f => f.output.isSome
  let given ← fields.mapM fun f => do return (f, ← fieldValue list f record)
  r.outputs record given

end Reader

end RecordSchema

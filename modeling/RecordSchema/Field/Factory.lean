import RecordSchema.Field.Arguments
import RecordSchema.Field.Spec

/-!
# Built-in fields

The declarations that schema authors write: texts, numbers, dates and
other scalar columns, choices from a set of texts, relations, computed
fields, and composites of several columns. Every factory pairs a storage
kind with wiring that never accepts a value of another shape: a nullable
argument of a required field has a resolver that refuses null.
-/

namespace RecordSchema

/-! ## Scalar columns -/

/-- The type of the arguments and outputs of a scalar column. -/
def Scalar.declaredType : Scalar → TypeExpr
  | .text => .scalar .text
  | .boolean => .scalar .boolean
  | .int => .scalar .integer
  | .float => .scalar .float
  | .dateTime => .scalar .dateTime
  | .bigInt => .scalar .bigInt
  | .json => .scalar .json
  | .decimal => .scalar .decimal

/-- The name of the filter class of a scalar type. -/
def Scalar.filterName? : Scalar → Option String
  | .text => some "StringFilter"
  | .boolean => some "BooleanFilter"
  | .int => some "IntFilter"
  | .float => some "FloatFilter"
  | .dateTime => some "DateTimeFilter"
  | .bigInt => some "BigIntFilter"
  | .decimal => some "DecimalFilter"
  | .json => none

/-- The type of an ordering argument. -/
def TypeExpr.direction : TypeExpr :=
  .enum sharedQualifier "OrderDirection" [("asc", .text "asc"), ("desc", .text "desc")]

def Mode.of (required many : Bool) : Mode :=
  if many then .many else if required then .required else .nullable

def IndexKind.of? (unique index : Bool) : Option IndexKind :=
  if unique then some .unique else if index then some .index else none

/-- A plain value as a default is a literal, and null is no default. -/
def Default.literal? : Option Default → Option Default
  | some (.bare .null) => none
  | some (.bare v) => some (.policy (.literal v))
  | d => d

def refuseNull (path : String) : InputResolver := fun c =>
  if c.value.isNull then .error (.value (.nullField path)) else .ok c.value

/-- Takes null for a value that was not sent. -/
def nullAsUnset : InputResolver := fun c =>
  .ok (if c.value.isNull then .unset else c.value)

def columnInputs (path : String) (type : TypeExpr) (mode : Mode) (filterType : Option TypeExpr)
    (unique sortable settable : Bool) : List (Wired × FieldInput) :=
  let value := (if mode = .many then TypeExpr.list .typing type else type).optional
  let write : FieldInput :=
    { arg := some { type := value }
      resolve := if mode = .nullable then none else some (refuseNull path) }
  let read (t : TypeExpr) : FieldInput := { arg := some { type := t.optional } }
  (if settable then [(.operation .create, write), (.operation .update, write)] else [])
    ++ if mode = .many then []
      else
        (filterType.toList.map fun t => (.operation .filter, read t))
          ++ (if unique then [(.operation .identify, read type)] else [])
          ++ if sortable then [(.operation .order, read .direction)] else []

def columnOutput (type : TypeExpr) : Mode → TypeExpr
  | .many => .list .typing type
  | .required => type
  | .nullable => type.optional

/-- The options of a scalar field. -/
structure ScalarOptions where
  required : Bool := false
  many : Bool := false
  default : Option Default := none
  unique : Bool := false
  index : Bool := false
  map : Option String := none
  nativeType : Option String := none
  updatedAt : Bool := false
  settable : Bool := true
  sortable : Bool := true
  filterable : Bool := true
  label : Option String := none
  description : Option String := none
  views : Option String := none

def given? (s : Option String) : Option String := s.filter fun s => !s.isEmpty

namespace FieldSpec

def scalar (s : Scalar) (o : ScalarOptions) : FieldSpec where
  label := o.label
  build d :=
    let mode := Mode.of o.required o.many
    let filterType := if o.filterable then s.filterName?.map ListNames.inputType else none
    .ok {
      storage := .scalar {
        scalar := s
        mode
        default := Default.literal? o.default
        index := IndexKind.of? o.unique o.index
        map := o.map
        nativeType := o.nativeType
        updatedAt := o.updatedAt }
      inputs := columnInputs (d.list ++ "." ++ d.key) s.declaredType mode filterType
        o.unique o.sortable o.settable
      output := some { type := columnOutput s.declaredType mode, description := o.description }
      views := .text ((given? o.views).getD ("fieldql/" ++ Text.lower s.name))
      label := o.label }

/-- The key of a list, numbered by storage. -/
def id (label : Option String) : FieldSpec :=
  scalar .int {
    required := true
    default := some (.policy .autoincrement)
    unique := true
    settable := false
    label
    views := some "fieldql/id" }

/-- The word `autoincrement` as a default asks storage for numbers. -/
def numbered (d : Option Default) : Option Default :=
  match d with
  | some (.bare v) => if v.isText "autoincrement" then some (.policy .autoincrement) else d
  | d => d

/-- A field of whole numbers. -/
def integer (s : Scalar) (o : ScalarOptions) : FieldSpec :=
  scalar s { o with default := numbered o.default }

/-- A field of decimal numbers. A plain value as a default is taken by its text. -/
def decimal (precision scale : Value) (o : ScalarOptions) : FieldSpec :=
  scalar .decimal { o with
    default := match o.default with
      | some (.bare .null) => none
      | some (.bare v) => some (.bare (.text v.display))
      | d => d
    nativeType := some ("Decimal(" ++ precision.display ++ ", " ++ scale.display ++ ")") }

/-- A required boolean field. -/
def checkbox (o : ScalarOptions) : FieldSpec :=
  scalar .boolean { o with required := true, default := o.default.or (some (.bare (.bool false))) }

/-- A field of dates. `now` fills in the time of creation; a field stamped on
every write is not settable. -/
def timestamp (now : Bool) (o : ScalarOptions) : FieldSpec :=
  scalar .dateTime { o with
    default := if now then some (.policy .now) else o.default
    settable := !o.updatedAt }

def json (o : ScalarOptions) : FieldSpec :=
  scalar .json { o with sortable := false, filterable := false }

/-! ## Choices -/

/-- The options of a choice. -/
structure SelectOptions where
  options : List Value
  required : Bool := false
  default : Option Default := none
  unique : Bool := false
  index : Bool := false
  map : Option String := none
  enumName : Option String := none
  label : Option String := none
  description : Option String := none

/-- The enumeration of a set of texts. -/
def enumType (name : String) (values : List String) : TypeExpr :=
  .enumOf "" name (values.map fun v => (v, .text v))

def memberOf (name : String) (values : List String) (v : Value) : Except Fault Value :=
  if values.any fun s => v.isText s then .ok (.member name v)
  else .error (.value (.member name v))

/-- Member names that no enumeration may have. -/
def forbiddenMembers (values : List String) : List String :=
  values.filter fun v => v.isEmpty || v == "mro"

/-- Fails when an enumeration has a member that it may not have. -/
def checkMembers (values : List String) : Except Fault Unit :=
  match forbiddenMembers values with
  | [] => .ok ()
  | vs =>
    .error (.value (.stated ("invalid enum member name(s) " ++ ",".intercalate (vs.map Text.quote))))

def enumFilter (name : String) (type : TypeExpr) : FieldClass where
  name := name ++ "Filter"
  isInput := true
  fields := [("equals", type.optional), ("in", (TypeExpr.list .typing type).optional),
    ("notIn", (TypeExpr.list .typing type).optional),
    ("not", (ListNames.inputType (name ++ "Filter")).optional)]

/-- A field whose value is one of a set of texts. -/
def select (o : SelectOptions) : FieldSpec where
  label := o.label
  build d := do
    let values := o.options.map fun v => v.plain.display
    let mode := Mode.of o.required false
    let name := (given? o.enumName).getD (d.list ++ Name.pascal d.key ++ "Type")
    let storage := Storage.enum {
      name, values, mode
      default := Default.literal? o.default
      index := IndexKind.of? o.unique o.index
      map := o.map }
    if values.isEmpty || Storage.hasDuplicates values then
      return { storage, label := o.label }
    checkMembers values
    let type := enumType name values
    return {
      storage
      inputs := columnInputs (d.list ++ "." ++ d.key) type mode
        (some (ListNames.inputType (name ++ "Filter"))) o.unique true true
      output := some {
        type := columnOutput type mode
        resolve := some <| .compute fun c =>
          if c.value.isNull then .ok .null else memberOf name values c.value
        description := o.description }
      views := .text "fieldql/select"
      adminMeta := some (.ofFields [("options", .list (values.map .text))])
      label := o.label
      classes := [enumFilter name type] }

/-! ## Relations -/

/-- The options of a relation. `ref` names a list, or a field of a list as
`List.field` when that field is the other side. -/
structure RelationOptions where
  ref : String
  many : Bool := false
  foreignKey : Option ForeignKey := none
  relationName : Option String := none
  label : Option String := none
  description : Option String := none

/-- The text before the first dot and the text behind it. -/
def splitRef (ref : String) : String × String :=
  let cs := ref.toList
  (String.ofList (cs.takeWhile (· != '.')), String.ofList ((cs.dropWhile (· != '.')).drop 1))

/-- A link to another list. -/
def relationship (o : RelationOptions) : FieldSpec where
  label := o.label
  build d :=
    let (target, back) := splitRef o.ref
    let storage := Storage.relation {
      mode := if o.many then .many else .one
      list := target
      field := if back.isEmpty then none else some back
      foreignKey := o.foreignKey
      relationName := o.relationName }
    if !d.lists.contains target then .ok { storage, label := o.label }
    else
      let n := ListNames.ofKey target none
      let write (name : String) : FieldInput :=
        { arg := some { type := (ListNames.inputType name).optional, assumeCompatible := some true }
          resolve := some nullAsUnset }
      let read (name : String) : FieldInput :=
        { arg := some { type := (ListNames.inputType name).optional } }
      let record := TypeExpr.outputClass "" n.output
      let views := Value.text "fieldql/relationship"
      let adminMeta := some <| Value.ofFields [("refListKey", .text target),
        ("refFieldKey", if back.isEmpty then .null else .text back), ("many", .bool o.many)]
      if o.many then
        .ok {
          storage, views, adminMeta
          inputs := [(.operation .create, write n.manyCreateInput),
            (.operation .update, write n.manyUpdateInput),
            (.operation .filter, read n.manyFilterInput)]
          output := some {
            type := .list .typing record
            resolve := some .search
            description := o.description
            args := n.searchArgs }
          extraOutputs := [(d.key ++ "Count", {
            type := .scalar .integer
            resolve := some .tally
            args := [("where", n.filterArg)] })]
          label := o.label }
      else
        .ok {
          storage, views, adminMeta
          inputs := [(.operation .create, write n.oneCreateInput),
            (.operation .update, write n.oneUpdateInput),
            (.operation .filter, read n.filterInput)]
          output := some {
            type := record.optional
            resolve := some .follow
            description := o.description }
          label := o.label }

/-! ## Computed fields -/

/-- A field that stores nothing and is computed from the record. -/
def virtual (returns : TypeExpr) (resolve : Call → Except Fault Value)
    (label description : Option String) : FieldSpec where
  label
  build _ := .ok {
    storage := .none
    output := some {
      type := returns
      resolve := some (.compute fun c => resolve { value := .null, item := c.item, context := c.context })
      description }
    views := .text "fieldql/virtual"
    label }

/-! ## Composites -/

/-- The type of the values of one column of a composite; columns that choose
from a set have an enumeration of their own. -/
def subfieldType? (enumName : String) : Storage → Option TypeExpr
  | .scalar f => some f.scalar.declaredType
  | .enum f => some (enumType enumName f.values)
  | _ => none

/-- The values of a column that chooses from a set. -/
def choices? : Storage → Option (List String)
  | .enum f => some f.values
  | _ => none

/-- Fails when a column chooses from a set that no enumeration can have. -/
def checkChoices : List (String × Storage) → Except Fault Unit
  | [] => .ok ()
  | (_, s) :: r =>
    match choices? s with
    | some vs => do
      checkMembers vs
      checkChoices r
    | none => checkChoices r

def subfieldOutput (base : String) (es : Value.Entries) (name : String) (s : Storage) :
    Except Fault (String × Value) :=
  let v := (es.value? name).getD .null
  match choices? s with
  | some values =>
    if v.isNull then .ok (name, v)
    else (memberOf (base ++ Name.pascal name) values v).map (name, ·)
  | none => .ok (name, v)

def compositeOutput (base : String) (fields : List (String × Storage)) (v : Value) :
    Except Fault Value :=
  match v with
  | .map es => (fields.mapM fun (name, s) => subfieldOutput base es name s).map (.object base)
  | _ => .error .wrongKind

/-- One field stored in several columns. -/
def composite (fields : List (String × Storage)) (label description : Option String) : FieldSpec where
  label
  build d := do
    let storage := Storage.multi fields
    let base := d.list ++ Name.pascal d.key
    let typed := fields.mapM fun (name, s) => do
      return (name, ← subfieldType? (base ++ Name.pascal name) s, ← s.mode?)
    match typed with
    | none => return { storage, label }
    | some typed =>
      checkChoices fields
      let input := ListNames.inputType (base ++ "Input")
      let write : FieldInput :=
        { arg := some { type := input.optional, assumeCompatible := some true }
          resolve := some fun c => .ok (if c.value.isPresent then c.value else .map []) }
      return {
        storage, label
        inputs := [(.operation .create, write), (.operation .update, write)]
        output := some {
          type := .outputClass "" base
          resolve := some (.compute fun c => compositeOutput base fields c.value)
          description }
        views := .text "fieldql/composite"
        adminMeta := some (.ofFields [("subfields", .list (fields.map fun f => .text f.1))])
        classes := [
          { name := base ++ "Input"
            isInput := true
            fields := typed.map fun (name, t, m) =>
              (name, (if m = .many then TypeExpr.list .typing t else t).optional) },
          { name := base
            isInput := false
            fields := typed.map fun (name, t, m) => (name, columnOutput t m) }] }

end FieldSpec

end RecordSchema

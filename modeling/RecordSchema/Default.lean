import RecordSchema.Field.Legality
import RecordSchema.Supply

/-!
# Defaults

Which default policies a field may have, and the values that they give
to absent fields at creation. Texts take literals, generated ids, random
texts and storage expressions; integers take literals, numbering and
expressions; dates take literals, the current time and expressions; all
else takes literals and expressions, and enums only literals of their
own. Fields in many mode take none.
-/

namespace RecordSchema

/-! ## Literals -/

/-- Replaces the mark of universal time by its offset. -/
def zuluToOffset (s : String) : String :=
  String.ofList (s.toList.flatMap fun c => if c == 'Z' then "+00:00".toList else [c])

/-- The value of a scalar type that a literal stands for. -/
def Scalar.ofLiteral (s : Scalar) (v : Value) : Except Fault Value :=
  match s, v with
  | .text, .text _ => .ok v
  | .text, _ => .error (.value (.literal .text v))
  | .boolean, .bool _ => .ok v
  | .boolean, _ => .error (.value (.literal .boolean v))
  | .int, .int _ => .ok v
  | .int, _ => .error (.value (.literal .integer v))
  | .bigInt, .int _ => .ok v
  | .bigInt, _ => .error (.value (.literal .integer v))
  | .float, .float _ => .ok v
  | .float, .int n =>
    match Binary64.ofInt? n with
    | some x => .ok (.float x)
    | none => .error .overflow
  | .float, _ => .error (.value (.literal .number v))
  | .dateTime, .dateTime _ => .ok v
  | .dateTime, .text s =>
    match Iso.read (zuluToOffset s) with
    | .ok t => .ok (.dateTime t)
    | .error f => .error (.value (.iso f))
  | .dateTime, _ => .error (.value (.literal .isoText v))
  | .json, .text s =>
    match Json.read s with
    | .ok v => .ok v
    | .error f => .error (.ofJson f s)
  | .json, _ => .error (.value (.literal .jsonText v))
  | .decimal, v =>
    match Decimal.read? v.display with
    | some d => .ok (.decimal d)
    | none => .error (.value (.literal .decimalText v))

/-! ## Legality -/

def Default.name : Default → String
  | .policy p => p.name
  | .bare v => v.kindName

/-- Whether a scalar type may have a default of the policy. -/
def Scalar.allows : Scalar → Default → Bool
  | _, .policy (.literal _) => true
  | _, .policy (.dbGenerated _) => true
  | .text, .policy .cuid => true
  | .text, .policy .uuid => true
  | .text, .policy (.random ..) => true
  | .int, .policy .autoincrement => true
  | .bigInt, .policy .autoincrement => true
  | .dateTime, .policy .now => true
  | _, _ => false

def isByteCount : Value → Bool
  | .int n => n > 0
  | _ => false

def randomEncodings : List String := ["hex", "base64url"]

/-- Whether a value names an encoding of random texts. -/
def isEncoding : Value → Bool
  | .text s => randomEncodings.contains s
  | _ => false

def randomProblems (bytes encoding : Value) : List String :=
  Storage.complain (!isByteCount bytes)
      ("random default needs a positive byte count, got " ++ bytes.describe)
    ++ Storage.complain (!isEncoding encoding)
      ("random default encoding must be one of "
        ++ Text.tupleOf (randomEncodings.map Text.quote) ++ ", got " ++ encoding.describe)

/-- Problems of the default of a scalar column. Only a number too large for a
float and a JSON text that nests too deeply are faults instead of problems. -/
def ScalarField.defaultProblems (f : ScalarField) (d : Default) : Except Fault (List String) :=
  if !f.scalar.allows d then
    .ok [d.name ++ " default is not allowed on " ++ f.scalar.name ++ " fields"]
  else
    match d with
    | .policy (.literal v) =>
      match f.scalar.ofLiteral v with
      | .ok _ => .ok []
      | .error e =>
        if e.isValueFault then
          .ok ["invalid literal default for " ++ f.scalar.name ++ ": " ++ e.message]
        else .error e
    | .policy (.random bytes encoding) => .ok (randomProblems bytes encoding)
    | .policy (.dbGenerated expression) =>
      .ok (Storage.complain (!expression.isTruthy) "dbgenerated default needs an expression")
    | _ => .ok []

def EnumField.defaultProblems (f : EnumField) (d : Default) : List String :=
  match d with
  | .policy (.literal v) =>
    Storage.complain (!f.values.any fun s => v.isText s)
      ("default " ++ v.describe ++ " is not one of the values of enum " ++ Text.quote f.name)
  | d => ["enum " ++ Text.quote f.name ++ " only supports literal defaults, got " ++ d.name]

namespace Storage

/-- What to say of a default on a field in many mode. -/
def manyDefaultProblem : String := "fields in many mode cannot have a default"

mutual

def defaultProblems : Storage → Except Fault (List String)
  | .scalar f =>
    match f.default with
    | Option.none => .ok []
    | some d => if f.mode = .many then .ok [manyDefaultProblem] else f.defaultProblems d
  | .enum f =>
    match f.default with
    | Option.none => .ok []
    | some d => .ok (if f.mode = .many then [manyDefaultProblem] else f.defaultProblems d)
  | .multi fields => subfieldDefaultProblems fields
  | _ => .ok []

/-- Problems of the defaults of the columns of a multi field. -/
def subfieldDefaultProblems : List (String × Storage) → Except Fault (List String)
  | [] => .ok []
  | (name, s) :: r => do
    let here ← defaultProblems s
    let rest ← subfieldDefaultProblems r
    return here.map (("subfield " ++ Text.quote name ++ ": ") ++ ·) ++ rest

end

end Storage

/-! ## Generation -/

abbrev Generated (α : Type) := StateT Supply (Except Fault) α

namespace Generated

/-- The current time, in universal time. -/
def now : Generated Value := do
  let (t, s) := (← get).now
  set s
  return .dateTime t

/-- `n` random bytes. -/
def bytes (n : Nat) : Generated (List Nat) := do
  let (bs, s) := (← get).bytes n
  set s
  return bs

/-- A new id. -/
def cuid : Generated Value := do
  let (t, s) := (← get).now
  let (chance, s) := s.draw
  set s
  return .text (cuidText t.unixMillis s.used s.fingerprint chance)

/-- The length of the longest string of bytes. -/
def maxBytes : Nat := 0x7fffffffffffffde

/-- How many random bytes a value asks for; null leaves the number to the library. -/
def byteCount : Value → Except Fault Nat
  | .null => .ok 32
  | .bool b => .ok (if b then 1 else 0)
  | .int n =>
    if n < -0x8000000000000000 then .error .overflow
    else if n < 0 then .error (.value (.stated "negative argument not allowed"))
    else if n.toNat ≤ maxBytes then .ok n.toNat
    else .error .overflow
  | _ => .error .wrongKind

/-- Random bytes as text: hexadecimal, or base 64 in any other encoding. -/
def randomText (count encoding : Value) : Generated Value := do
  let n ← liftM (byteCount count)
  let bs ← bytes n
  return .text (if encoding.isText "hex" then hexText bs else String.ofList (base64Chars bs))

end Generated

/-- The value that a policy gives at creation, `unset` when storage fills it
in. A literal is taken as it is when no scalar type is given. -/
def Policy.generate (p : Policy) (scalar : Option Scalar) : Generated Value :=
  match p with
  | .literal v =>
    match scalar with
    | none => return v
    | some s => liftM (s.ofLiteral v)
  | .cuid => Generated.cuid
  | .uuid => do
    let bs ← Generated.bytes 16
    return .text (uuidText bs)
  | .random count encoding => Generated.randomText count encoding
  | .now => Generated.now
  | .autoincrement => return .unset
  | .dbGenerated _ => return .unset

/-- The value that a declared default gives at creation. -/
def Default.generate (d : Default) (scalar : Option Scalar) : Generated Value :=
  match d with
  | .policy p => p.generate scalar
  | .bare v => throw (.policy v)

namespace Storage

mutual

/-- The value of an absent field at creation, `unset` when there is none. -/
def defaultValue : Storage → Generated Value
  | .scalar f =>
    match f.default with
    | some d => if f.mode = .many then return .unset else d.generate (some f.scalar)
    | Option.none => return .unset
  | .enum f =>
    match f.default with
    | some d => if f.mode = .many then return .unset else d.generate Option.none
    | Option.none => return .unset
  | .multi fields => do
    let vs ← subfieldDefaults fields
    return .ofFields vs
  | _ => return .unset

/-- The values of absent columns of a multi field. -/
def subfieldDefaults : List (String × Storage) → Generated (List (String × Value))
  | [] => return []
  | (name, s) :: r => do
    let v ← defaultValue s
    let vs ← subfieldDefaults r
    return (name, v) :: vs

end

/-- Gives every absent column of a multi field its default. -/
def fillSubfields : List (String × Storage) → Value.Entries → Generated Value.Entries
  | [], es => return es
  | (name, s) :: r, es => do
    if (es.get name).isUnset then
      let v ← defaultValue s
      fillSubfields r (es.put name v)
    else fillSubfields r es

/-- The entry of one field after defaults: a multi field is filled column by
column, a stamped field takes the current time, and any other field takes
its default when it is absent. -/
def fill (s : Storage) (key : String) (data : Value.Entries) : Generated Value.Entries :=
  match s with
  | .multi fields => do
    let current := match data.get key with
      | .map es => es
      | _ => []
    let filled ← fillSubfields fields current
    return data.put key (.map filled)
  | s => do
    if s.isStamped then
      let t ← Generated.now
      return data.put key t
    else if (data.get key).isUnset then
      let v ← s.defaultValue
      return if v.isUnset then data else data.put key v
    else return data

/-- Gives every absent field its default, in the order of the fields. -/
def fillAll : List (String × Storage) → Value.Entries → Generated Value.Entries
  | [], data => return data
  | (key, s) :: r, data => do
    let data ← s.fill key data
    fillAll r data

/-- Puts the current time into every stamped field. -/
def stampAll : List (String × Storage) → Value.Entries → Generated Value.Entries
  | [], data => return data
  | (key, s) :: r, data => do
    if s.isStamped then
      let t ← Generated.now
      stampAll r (data.put key t)
    else stampAll r data

end Storage

end RecordSchema

import RecordSchema.Value

/-!
# Request contexts

The context of a request is a mapping or an object with attributes. An
object that has an attribute `context` stands for that attribute's
value.
-/

namespace RecordSchema.Context

def subject (context : Value) : Value :=
  match context with
  | .host as => (as.lookup "context").getD context
  | v => v

/-- Reads an entry or attribute, null when there is none. -/
def read (context : Value) (key : String) : Value :=
  match subject context with
  | .map es => (Value.Entries.value? es key).getD .null
  | .host as => (as.lookup key).getD .null
  | _ => .null

/-- Sets a field among fields, at its place or else at the end. -/
def putField (fields : List (String × Value)) (key : String) (v : Value) : List (String × Value) :=
  if fields.any (·.1 == key) then fields.map fun f => if f.1 == key then (key, v) else f
  else fields ++ [(key, v)]

/-- Sets an entry or attribute of what the context stands for. -/
def write (context : Value) (key : String) (v : Value) : Value :=
  let set : Value → Value
    | .map es => .map (Value.Entries.put es key v)
    | .host as => .host (putField as key v)
    | w => w
  match context with
  | .host as =>
    match as.lookup "context" with
    | some inner => .host (putField as "context" (set inner))
    | none => set context
  | v => set v

/-- The keys under which a storage session is looked for, in order. -/
def sessionKeys : List String := ["db_session", "db", "session", "async_session"]

/-- The storage session of a context, null when there is none. -/
def session (context : Value) : Value :=
  ((sessionKeys.map (read context)).find? fun v => !v.isNull).getD .null

end RecordSchema.Context

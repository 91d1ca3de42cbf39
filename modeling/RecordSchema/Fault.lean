import RecordSchema.Annotation
import RecordSchema.Json.Reader
import RecordSchema.Shape.Derive
import RecordSchema.Time.Iso

/-!
# Faults

Everything that can go wrong, by its cause. A fault of the schema lists
every problem at once; a fault of a request belongs to one mutation or
one field. `Fault.message` is the only place that words a fault.
-/

namespace RecordSchema

/-! ## Causes -/

/-- The vocabularies whose spellings a caller may get wrong. -/
inductive Vocabulary where
  | operation
  | setPolicy
  | quantifier
deriving DecidableEq

def Vocabulary.name : Vocabulary → String
  | .operation => "Operation"
  | .setPolicy => "SetPolicy"
  | .quantifier => "Quantifier"

/-- The attributes of storage kinds that take one of a few words. -/
inductive KindAttribute where
  | scalar
  | mode
  | index
  | relationMode

def KindAttribute.name : KindAttribute → String
  | .scalar => "scalar type"
  | .mode => "mode"
  | .index => "index"
  | .relationMode => "relation mode"

def KindAttribute.words : KindAttribute → List String
  | .scalar => (Spelled.all : List Scalar).map Spelled.spelling
  | .mode => (Spelled.all : List Mode).map Spelled.spelling
  | .index => (Spelled.all : List IndexKind).map Spelled.spelling
  | .relationMode => (Spelled.all : List Cardinality).map Spelled.spelling

/-- The kinds of literal that a default may have to be. -/
inductive LiteralKind where
  | text
  | boolean
  | integer
  | number
  | isoText
  | jsonText
  | decimalText

def LiteralKind.name : LiteralKind → String
  | .text => "a string"
  | .boolean => "a boolean"
  | .integer => "an integer"
  | .number => "a number"
  | .isoText => "an ISO-8601 string"
  | .jsonText => "JSON text"
  | .decimalText => "a decimal string"

/-- A value outside the range of what takes it. -/
inductive ValueFault where
  | spelling (word : KindAttribute) (v : Value)
  | vocabulary (vocabulary : Vocabulary) (v : Value)
  | literal (kind : LiteralKind) (v : Value)
  | iso (fault : IsoFault)
  | operator (name : Value)
  | direction (text : String)
  /-- A value outside an enumeration. -/
  | member (enum : String) (v : Value)
  | nullField (path : String)
  /-- A number of entries where there has to be one. -/
  | notSole (count : Nat)
  | noSession
  /-- Everything that is wrong with the query API of a schema. -/
  | api (problems : List String)
  /-- A null character in the name of a class. -/
  | nullCharacter
  | stated (message : String)

def ValueFault.message : ValueFault → String
  | .spelling a v =>
    "Invalid " ++ a.name ++ " " ++ v.describe ++ ". Valid values: " ++ Text.quoteList a.words
  | .vocabulary w v => v.describe ++ " is not a valid " ++ w.name
  | .literal k v => "expected " ++ k.name ++ ", got " ++ v.describe
  | .iso f => f.message
  | .operator n => "Unknown filter operator " ++ n.describe
  | .direction t => "Invalid order direction '" ++ t ++ "'. Must be 'asc' or 'desc'."
  | .member e v => v.describe ++ " is not a valid " ++ e
  | .nullField path => path ++ " cannot be null"
  | .notSole 0 => "not enough values to unpack (expected 1, got 0)"
  | .notSole _ => "too many values to unpack (expected 1)"
  | .noSession => "No db_session in context"
  | .nullCharacter => "type name must not contain null characters"
  | .api ps => "Invalid Schema. Errors:\n\n" ++ "\n\n".intercalate (ps.map ("❌ " ++ ·))
  | .stated m => m

/-- A mistake in the arguments of a query or mutation. -/
inductive QueryFault where
  | negativeTake (n : Int)
  | negativeSkip (n : Int)
  /-- An ordering entry that does not name exactly one field. -/
  | orderEntry (keys : List Value)
  | direction (text : String)
  | notFilterable (list : String) (key : Value)
  | notOrderable (list : String) (key : Value)
  | notIdentifying (list : String) (key : Value)
  /-- A unique filter that does not name exactly one field. -/
  | uniqueFilter (list : String) (keys : List Value)
  | notAccepted (list : String) (op : Operation) (keys : List Value)
  | relationKeys (mode : Cardinality) (op : Operation) (keys : List Value)
  | stated (message : String)

def QueryFault.message : QueryFault → String
  | .negativeTake n => "take must not be negative, got " ++ Digits.signed n
  | .negativeSkip n => "skip must not be negative, got " ++ Digits.signed n
  | .orderEntry keys => "orderBy entries must name exactly one field, got " ++ (Value.list keys).describe
  | .direction t => (ValueFault.direction t).message
  | .notFilterable l k => l ++ "." ++ k.display ++ " cannot be filtered"
  | .notOrderable l k => l ++ "." ++ k.display ++ " cannot be ordered by"
  | .notIdentifying l k => l ++ "." ++ k.display ++ " is not unique"
  | .uniqueFilter l keys =>
    l ++ " unique where must name exactly one field, got " ++ (Value.list keys).describe
  | .notAccepted l op keys =>
    l ++ " does not accept " ++ op.name ++ " input for " ++ (Value.list keys).describe
  | .relationKeys mode op keys =>
    "Unsupported " ++ Spelled.spelling mode ++ "-relation input keys for " ++ op.name ++ ": "
      ++ (Value.list keys).describe
  | .stated m => m

/-- Relation input whose verbs contradict each other. -/
inductive Ambiguity where
  /-- Several verbs where one is allowed. -/
  | severalVerbs (allowed verbs : List String)
  /-- `set` beside other verbs. -/
  | setCombined (others : List String)
  | stated (message : String) (verbs : List String)

def Ambiguity.message : Ambiguity → String
  | .severalVerbs allowed verbs =>
    "Only one of " ++ ", ".intercalate allowed ++ " may be provided for a one relation, got "
      ++ ", ".intercalate verbs
  | .setCombined others =>
    "set cannot be combined with " ++ ", ".intercalate others ++ " in one relation update"
  | .stated m _ => m

/-- The verbs that contradict each other. -/
def Ambiguity.verbs : Ambiguity → List String
  | .severalVerbs _ verbs => verbs
  | .setCombined others => "set" :: others
  | .stated _ verbs => verbs

/-- The resolvers of a field. -/
inductive ResolverName where
  | input (op : Operation)
  | output
  /-- The resolver of an additional output. -/
  | extra (name : String)

def ResolverName.word : ResolverName → String
  | .input op => op.name
  | .output => "output"
  | .extra n => n

/-- Why a field could not be resolved. -/
inductive ResolutionCause where
  | notAccepted (op : Operation)
  /-- A resolver failed; the failure is given by its text. -/
  | failed (resolver : ResolverName) (failure : String)
  | wrongInput (op : Operation) (result : Value) (target : Shape)
  | wrongStored (value : Value) (target : Shape)
  /-- Several fields failed, each with an error of its own. -/
  | several (count : Nat)
  | stated (message : String)

def ResolutionCause.message : ResolutionCause → String
  | .notAccepted op => "field does not accept " ++ op.name ++ " input"
  | .failed r failure => r.word ++ " resolver failed: " ++ failure
  | .wrongInput op result target =>
    op.name ++ " resolver returned " ++ result.describe ++ ", expected " ++ target.describe
  | .wrongStored v target => "stored value " ++ v.describe ++ " is not a valid " ++ target.describe
  | .several n => Digits.decimal n ++ " fields failed to resolve"
  | .stated m => m

/-- A constraint of a table that a write would break. -/
inductive Constraint where
  | notNull (table column : String)
  | unique (table : String) (columns : List String)
  /-- An id that is no number. -/
  | datatype

/-- The wording of a broken constraint. -/
def Constraint.message : Constraint → String
  | .notNull t c => "NOT NULL constraint failed: " ++ t ++ "." ++ c
  | .unique t cs =>
    "UNIQUE constraint failed: " ++ ", ".intercalate (cs.map fun c => t ++ "." ++ c)
  | .datatype => "datatype mismatch"

/-- A key that a mapping does not have. -/
inductive KeyFault where
  | storage (key : Value)
  /-- A field that is stored in several columns. -/
  | severalColumns (list field : String)
  | unknown
deriving Inhabited

/-- The wording of a missing key, where there is one. -/
def KeyFault.message? : KeyFault → Option String
  | .storage k => some ("Unknown storage configuration " ++ k.describe)
  | .severalColumns l f => some (l ++ "." ++ f ++ " is stored in several columns")
  | .unknown => none

/-! ## Faults -/

/-- Anything that can go wrong. -/
inductive Fault where
  /-- Every problem of a schema. -/
  | configuration (problems : List String)
  | ambiguous (cause : Ambiguity)
  | notFound (list : String) (filter : Value.Entries)
  | resolution (path : List String) (cause : ResolutionCause) (errors : List Fault)
  | query (cause : QueryFault)
  /-- A cursor without an ordering. -/
  | unorderedCursor (given : Option String)
  /-- A fault that a resolver states in the library's name. -/
  | stated (message : String)
  | argumentType (cause : TypeFault)
  | value (cause : ValueFault)
  | json (fault : Json.Fault) (text : String)
  | kind (cause : ShapeFault)
  | policy (v : Value)
  | key (cause : KeyFault)
  | constraint (cause : Constraint)
  /-- A value that its column cannot take. -/
  | statement
  /-- A value of a kind that storage cannot take at all. -/
  | binding
  | duplicateColumn
  /-- Two tables of one name. -/
  | duplicateTable
  /-- A comparison that storage does not offer. -/
  | comparison
  /-- A request or a schema outside the query language. -/
  | graph
  /-- A name in the API that is a reserved word or no word at all. -/
  | badName
  /-- A number too large for where it goes. -/
  | overflow
  /-- A value of a kind that an operation does not work on. -/
  | wrongKind
  /-- A failure of a host function, by its text. -/
  | host (message : String)
  /-- Input nested more deeply than the library follows. -/
  | nesting

namespace Fault

/-- The fault of a text that could not be read as JSON. -/
def ofJson (f : Json.Fault) (text : String) : Fault :=
  if f.problem = .tooDeep then .nesting else .json f text

/-- The text of several problems. -/
def problemsMessage : List String → String
  | [p] => p
  | ps =>
    Digits.decimal ps.length ++ " schema configuration problems:\n"
      ++ "\n".intercalate (ps.map ("  - " ++ ·))

/-- The wording of a fault; `none` where there is none. -/
def message? : Fault → Option String
  | .configuration ps => some (problemsMessage ps)
  | .ambiguous c => some c.message
  | .notFound l w => some ("No " ++ l ++ " record matches " ++ (Value.map w).describe)
  | .resolution path c _ =>
    let at_ := ".".intercalate path
    some (if at_.isEmpty then c.message else at_ ++ ": " ++ c.message)
  | .query c => some c.message
  | .unorderedCursor given =>
    some (given.getD
      "cursor requires a non-empty orderBy; without one the position after the cursor is undefined")
  | .stated m => some m
  | .argumentType c => some c.message
  | .value c => some c.message
  | .json f t => some (f.message t)
  | .kind (.unsupportedKind v) => some ("Unsupported storage field kind: " ++ v.kindName)
  | .kind .noColumn => none
  | .policy v => some ("Unknown default policy: " ++ v.describe)
  | .key c => c.message?
  | .constraint c => some c.message
  | .host m => some m
  | _ => none

/-- The wording of a fault, empty where there is none. -/
def message (f : Fault) : String :=
  f.message?.getD ""

/-- Whether the fault is one of the library's own, which resolvers hand on
as they are. -/
def isOwn : Fault → Bool
  | .configuration _ | .ambiguous _ | .notFound .. | .resolution .. | .query _
  | .unorderedCursor _ | .stated _ => true
  | _ => false

/-- Whether the fault is about a value outside its range. -/
def isValueFault : Fault → Bool
  | .query _ | .unorderedCursor _ | .value _ | .json .. => true
  | _ => false

def isResolution : Fault → Bool
  | .resolution .. => true
  | _ => false

end Fault

end RecordSchema

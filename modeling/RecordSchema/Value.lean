import RecordSchema.Number.Decimal
import RecordSchema.Time.DateTime

/-!
# Values

The values that flow through a record schema: what a client sends, what
a resolver returns, what a record holds. Field resolvers are arbitrary
functions on them, so one type holds all of them.

`unset` stands for an argument or input field that was not sent, which
is different from an explicit `null`. Mappings keep the order of their
entries and hold each key once.
-/

namespace RecordSchema

/-- Whether a relation links to one record or to many. -/
inductive Cardinality where
  | one
  | many
deriving DecidableEq, Inhabited

/-- A class of input objects. -/
structure InputType where
  name : String
  /-- Attributes with their names in the API; others go by their own name. -/
  attributes : List (String × String) := []
deriving DecidableEq, Inhabited

/-- A name stands for the class whose attributes go by their own names. -/
instance : Coe String InputType := ⟨fun name => { name }⟩

/-- The name of an attribute in the API. -/
def InputType.apiName (t : InputType) (attr : String) : String :=
  (t.attributes.lookup attr).getD attr

/-- A runtime value. -/
inductive Value where
  /-- Not sent. -/
  | unset
  | null
  | bool (b : Bool)
  | int (n : Int)
  | float (x : Binary64)
  | text (s : String)
  | decimal (d : Decimal)
  | dateTime (t : DateTime)
  | bytes (bs : List UInt8)
  | list (items : List Value)
  | tuple (items : List Value)
  /-- A mapping in insertion order. -/
  | map (entries : List (Value × Value))
  /-- A member of an enumeration, by its value. -/
  | member (enum : String) (value : Value)
  /-- An input object, by its attributes; one that was not sent is `unset`. -/
  | input (type : InputType) (fields : List (String × Value))
  /-- An object of a generated output type. -/
  | object (type : String) (fields : List (String × Value))
  /-- A host object that has attributes and is no mapping. -/
  | host (attributes : List (String × Value))
  /-- A function. -/
  | callable
  /-- A host object that finds and counts related records. -/
  | items
  /-- The accessor of relation `field` of the record `id` of a list. -/
  | related (mode : Cardinality) (list field : String) (id : Value)
deriving Inhabited

namespace Value

/-! ## Mappings -/

abbrev Entries := List (Value × Value)

/-- Whether the value is not sent. -/
def isUnset : Value → Bool
  | .unset => true
  | _ => false

def isNull : Value → Bool
  | .null => true
  | _ => false

/-- Neither null nor unset. -/
def isPresent : Value → Bool
  | .unset => false
  | .null => false
  | _ => true

def isText (s : String) : Value → Bool
  | .text t => t == s
  | _ => false

/-- The entry of a text key. -/
def Entries.value? (es : Entries) (key : String) : Option Value :=
  (List.find? (fun e => e.1.isText key) es).map Prod.snd

/-- The entry of a text key, `unset` when there is none. -/
def Entries.get (es : Entries) (key : String) : Value :=
  (es.value? key).getD .unset

/-- Whether there is an entry of a text key. -/
def Entries.has (es : Entries) (key : String) : Bool :=
  List.any es fun e => e.1.isText key

/-- Sets the entry of a text key, at its place or else at the end. -/
def Entries.put (es : Entries) (key : String) (v : Value) : Entries :=
  if es.has key then List.map (fun e => if e.1.isText key then (e.1, v) else e) es
  else es ++ [(.text key, v)]

/-- The mapping of text keys. -/
def ofFields (fields : List (String × Value)) : Value :=
  .map (fields.map fun (k, v) => (.text k, v))

def entries? : Value → Option Entries
  | .map es => some es
  | _ => none

def isMapping : Value → Bool
  | .map _ => true
  | _ => false

/-! ## Equality

Numbers of every kind are equal when their values are, and a boolean
counts as zero or one. Lists and mappings are compared by their
members; mappings regardless of order. -/

/-- The numeric value of a boolean, as an integer. -/
def ofBool (b : Bool) : Int :=
  if b then 1 else 0

/-- Equality of a finite decimal and a ratio. -/
def decimalIs (d : Decimal) (num : Int) (den : Nat) : Bool :=
  match d with
  | .finite s c e =>
    let c : Int := if s then -(c : Int) else c
    if e < 0 then c * den == num * Nat.pow 10 e.natAbs else c * Nat.pow 10 e.toNat * den == num
  | _ => false

/-- Equality of two decimals by value; a NaN equals nothing. -/
def sameDecimal (d e : Decimal) : Bool :=
  match d, e with
  | .infinity s, .infinity t => s == t
  | d, .finite s c x =>
    let c : Int := if s then -(c : Int) else c
    if x < 0 then decimalIs d c (Nat.pow 10 x.natAbs) else decimalIs d (c * Nat.pow 10 x.toNat) 1
  | _, _ => false

/-- Equality of a binary number and a decimal by value. -/
def sameFloatDecimal (x : Binary64) (d : Decimal) : Bool :=
  match x, d with
  | .infinity s, .infinity t => s == t
  | .finite s m e, d =>
    let (a, b) := Binary64.signedRatio s m e
    decimalIs d a b
  | _, _ => false

mutual

/-- Equality of values. -/
def same : Value → Value → Bool
  | .unset, .unset => true
  | .null, .null => true
  | .bool a, .bool b => a == b
  | .bool a, .int n => ofBool a == n
  | .int n, .bool b => n == ofBool b
  | .bool a, .float x => x.compareInt? (ofBool a) == some .eq
  | .float x, .bool b => x.compareInt? (ofBool b) == some .eq
  | .bool a, .decimal d => decimalIs d (ofBool a) 1
  | .decimal d, .bool b => decimalIs d (ofBool b) 1
  | .int a, .int b => a == b
  | .int n, .float x => x.compareInt? n == some .eq
  | .float x, .int n => x.compareInt? n == some .eq
  | .int n, .decimal d => decimalIs d n 1
  | .decimal d, .int n => decimalIs d n 1
  | .float x, .float y => x.compare? y == some .eq
  | .float x, .decimal d => sameFloatDecimal x d
  | .decimal d, .float x => sameFloatDecimal x d
  | .decimal d, .decimal e => sameDecimal d e
  | .text a, .text b => a == b
  | .dateTime t, .dateTime u => t.offset.isSome == u.offset.isSome && t.micros == u.micros
  | .bytes a, .bytes b => a == b
  | .list a, .list b => sameList a b
  | .tuple a, .tuple b => sameList a b
  | .map a, .map b => a.length == b.length && subMap a b
  | .member e v, .member f w => e == f && same v w
  | .input t a, .input u b => t == u && sameFields a b
  | .object t a, .object u b => t == u && sameFields a b
  | .host a, .host b => sameFields a b
  | .callable, .callable => true
  | .items, .items => true
  | .related m l f v, .related n k g w => m == n && l == k && f == g && same v w
  | _, _ => false

/-- Equality of lists, member by member. -/
def sameList : List Value → List Value → Bool
  | [], [] => true
  | a :: r, b :: s => same a b && sameList r s
  | _, _ => false

/-- Equality of fields, in order. -/
def sameFields : List (String × Value) → List (String × Value) → Bool
  | [], [] => true
  | (k, a) :: r, (l, b) :: s => k == l && same a b && sameFields r s
  | _, _ => false

/-- Whether every entry is in `b`. -/
def subMap : List (Value × Value) → List (Value × Value) → Bool
  | [], _ => true
  | (k, v) :: r, b => (b.any fun e => same k e.1 && same v e.2) && subMap r b

end

/-- Membership by equality. -/
def isIn (v : Value) (vs : List Value) : Bool :=
  vs.any v.same

/-- Adds an entry for any key: an equal key keeps its place and spelling. -/
def Entries.putAny (es : Entries) (key v : Value) : Entries :=
  if List.any es fun e => e.1.same key then
    List.map (fun e => if e.1.same key then (e.1, v) else e) es
  else es ++ [(key, v)]

/-- The input object of a class that has the attributes that are given. -/
def ofAttributes (t : InputType) (given : List (String × Value)) : Value :=
  .input t (t.attributes.map fun a => (a.1, (given.lookup a.1).getD .unset))

/-- A mapping from entries in order; the last entry of a key wins. -/
def ofEntries (es : List (Value × Value)) : Value :=
  .map (es.foldl (fun acc e => Entries.putAny acc e.1 e.2) [])

end Value

end RecordSchema

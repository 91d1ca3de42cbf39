import RecordSchema.Store

/-!
# Conditions

What a query asks of a row. A condition is true, false or unknown of a
row: a comparison with nothing is unknown, and so are the combinations
that hang on it. Only rows of which the condition is true are selected.

A condition on a relation is about the tied rows (`Store.isTied`):
`related` holds when one of them satisfies the inner condition, and is
never unknown.
-/

namespace RecordSchema

/-! ## Truth -/

/-- A truth value with a third one for comparisons with nothing. -/
inductive Truth where
  | yes
  | no
  | unknown
deriving DecidableEq, Inhabited

namespace Truth

def ofBool (b : Bool) : Truth :=
  if b then yes else no

/-- Negation: the unknown stays unknown. -/
def not : Truth → Truth
  | yes => no
  | no => yes
  | unknown => unknown

/-- Conjunction: false when one side is. -/
def and : Truth → Truth → Truth
  | no, _ => no
  | _, no => no
  | yes, yes => yes
  | _, _ => unknown

/-- Disjunction: true when one side is. -/
def or : Truth → Truth → Truth
  | yes, _ => yes
  | _, yes => yes
  | no, no => no
  | _, _ => unknown

/-- Whether a truth value is true. -/
def isYes : Truth → Bool
  | yes => true
  | _ => false

end Truth

/-! ## Tests of one cell -/

/-- How a cell is compared with an operand. -/
inductive Comparison where
  | eq
  | lt
  | le
  | gt
  | ge
deriving DecidableEq

def Comparison.admits : Comparison → Ordering → Bool
  | .eq, o => o == .eq
  | .lt, o => o == .lt
  | .le, o => o != .gt
  | .gt, o => o == .gt
  | .ge, o => o != .lt

/-- Where a text is looked for. -/
inductive Placement where
  | anywhere
  | atStart
  | atEnd
deriving DecidableEq

/-- Whether a run of characters stands anywhere in a text. -/
def standsIn (needle : List Char) : List Char → Bool
  | [] => needle.isEmpty
  | c :: r => needle.isPrefixOf (c :: r) || standsIn needle r

/-- Whether a needle stands in a text at the asked place. -/
def Placement.admits (p : Placement) (needle text : List Char) : Bool :=
  match p with
  | .anywhere => standsIn needle text
  | .atStart => needle.isPrefixOf text
  | .atEnd => needle.isSuffixOf text

/-- A test of one cell. -/
inductive Test where
  | isNull
  | compare (c : Comparison) (operand : Cell)
  | among (operands : List Cell)
  /-- Looks for a text regardless of the case of ASCII letters. -/
  | holds (p : Placement) (needle : String)
  /-- A test of the text of the cell in lower case. -/
  | folded (t : Test)
deriving Inhabited

namespace Test

/-- Evaluates a membership test of a cell that is not null. -/
def evalAmong (operands : List Cell) (c : Cell) : Truth :=
  if operands.any fun o => !o.isNull && c.same o then .yes
  else if operands.any Cell.isNull then .unknown
  else .no

/-- Evaluates a test. Nothing is among no operands, not even the unknown. -/
def eval : Test → Cell → Truth
  | .isNull, c => .ofBool c.isNull
  | .compare op o, c =>
    if c.isNull || o.isNull then .unknown else .ofBool (op.admits (c.order o))
  | .among os, c =>
    if os.isEmpty then .no else if c.isNull then .unknown else evalAmong os c
  | .holds p needle, c =>
    if c.isNull then .unknown
    else .ofBool (p.admits (Cell.foldText needle).toList (Cell.foldText c.shown).toList)
  | .folded t, c => eval t c.fold

end Test

/-! ## Conditions -/

/-- A condition on a row. -/
inductive Condition where
  | all (cs : List Condition)
  | any (cs : List Condition)
  | not (c : Condition)
  | cell (column : String) (t : Test)
  /-- One of the rows tied through a relation satisfies the condition. -/
  | related (plan : RelationPlan) (c : Condition)
deriving Inhabited

namespace Condition

mutual

def eval (s : Store) : Condition → Row → Truth
  | .all cs, r => evalAll s cs r
  | .any cs, r => evalAny s cs r
  | .not c, r => (eval s c r).not
  | .cell column t, r => t.eval (r.cell column)
  | .related plan c, r =>
    .ofBool <| (s.rows plan.target).any fun t => s.isTied plan r t && (eval s c t).isYes

def evalAll (s : Store) : List Condition → Row → Truth
  | [], _ => .yes
  | c :: cs, r => (eval s c r).and (evalAll s cs r)

def evalAny (s : Store) : List Condition → Row → Truth
  | [], _ => .no
  | c :: cs, r => (eval s c r).or (evalAny s cs r)

end

def selects (c : Condition) (s : Store) (r : Row) : Bool :=
  (c.eval s r).isYes

end Condition

end RecordSchema

import RecordSchema.Text.Case

/-!
# Names

Conversions between the spellings of a name: `snake_case` keys,
`camelCase` field names, `PascalCase` type names, and the label shown to
people. `isIdentifier` decides which names may be used as keys.
-/

namespace RecordSchema.Name

/-- An ASCII capital letter. -/
def isCapital (c : Char) : Bool :=
  'A' ≤ c && c ≤ 'Z'

/-- Puts an underscore before every capital letter. -/
def splitWords (cs : List Char) : List Char :=
  cs.flatMap fun c => if isCapital c then ['_', c] else [c]

/-- `camelCase` to `snake_case`: words are split before every capital letter
but the first character. -/
def fromCamel (s : String) : String :=
  match s.toList with
  | [] => ""
  | c :: rest => Text.lower (String.ofList (c :: splitWords rest))

/-- The parts of a text between underscores. -/
def segments : List Char → List (List Char)
  | [] => [[]]
  | c :: rest =>
    if c == '_' then [] :: segments rest
    else match segments rest with
      | [] => [[c]]
      | first :: others => (c :: first) :: others

/-- `snake_case` to `camelCase`: every segment but the first is capitalized. -/
def toCamel (s : String) : String :=
  match segments s.toList with
  | [] => ""
  | first :: rest =>
    String.ofList first ++ String.join (rest.map fun seg => Text.capitalize (String.ofList seg))

/-- `snake_case` to `PascalCase`. -/
def pascal (s : String) : String :=
  Text.upperFirst (toCamel s)

/-- Words that are never names. -/
def reserved : List String := [
  "False", "None", "True", "and", "as", "assert", "async", "await", "break", "class",
  "continue", "def", "del", "elif", "else", "except", "finally", "for", "from", "global",
  "if", "import", "in", "is", "lambda", "nonlocal", "not", "or", "pass", "raise", "return",
  "try", "while", "with", "yield"]

/-- A character that may begin a name. -/
def isInitial (c : Char) : Bool :=
  isCapital c || ('a' ≤ c && c ≤ 'z') || c == '_'

/-- A character that may stand behind the first one. -/
def isFollowing (c : Char) : Bool :=
  isInitial c || ('0' ≤ c && c ≤ '9')

/-- Drops one line feed at the end. -/
def dropFinalNewline (cs : List Char) : List Char :=
  if cs.getLast? = some '\n' then cs.dropLast else cs

/-- Whether characters spell a word: an ASCII letter or underscore, then
letters, digits and underscores. -/
def spellsWord : List Char → Bool
  | [] => false
  | c :: rest => isInitial c && rest.all isFollowing

/-- A name: a word that is not reserved. One line feed at the end is let pass. -/
def isIdentifier (s : String) : Bool :=
  spellsWord (dropFinalNewline s.toList) && !reserved.contains s

/-- Puts a blank before every upper-case character. -/
def spaceWords (cs : List Char) : List Char :=
  cs.flatMap fun c => if Text.upperCase.contains c then [' ', c] else [c]

/-- The label of a key: words apart, underscores as blanks, the first
character in upper case. -/
def humanize (key : String) : String :=
  let spaced := match key.toList with
    | [] => []
    | c :: rest => c :: spaceWords rest
  let blanks := spaced.map fun c => if c == '_' then ' ' else c
  Text.upperFirst (Text.strip (String.ofList blanks))

end RecordSchema.Name

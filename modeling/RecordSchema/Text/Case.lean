import RecordSchema.Text.CaseTable
import RecordSchema.Text.CharSet

/-!
# Case conversion

Full Unicode case conversion of texts: a character may become several,
and a capital sigma at the end of a word becomes a final sigma.
-/

namespace RecordSchema.Text

/-- The counterpart of `c` in a list of runs, or `c` itself. -/
def mapRuns (runs : List CaseRun) (c : Char) : Char :=
  let n := c.toNat
  match runs.find? fun r => r.first ≤ n && n ≤ r.last && (n - r.first) % r.step == 0 with
  | some r => Char.ofNat ((n : Int) + r.delta).toNat
  | none => c

/-- The counterpart of `c` by its special form or else by the runs. -/
def mapCase (special : List (Nat × List Nat)) (runs : List CaseRun) (c : Char) : List Char :=
  match special.lookup c.toNat with
  | some form => form.map Char.ofNat
  | none => [mapRuns runs c]

/-- Lower-case form of a character, regardless of its place. -/
def lowerChar (c : Char) : List Char :=
  if c.toNat < 128 then [c.toLower] else mapCase lowerSpecial lowerRuns c

def upperChar (c : Char) : List Char :=
  if c.toNat < 128 then [c.toUpper] else mapCase upperSpecial upperRuns c

def titleChar (c : Char) : List Char :=
  match titleSpecial.lookup c.toNat with
  | some form => form.map Char.ofNat
  | none => upperChar c

/-- Whether the first character that is not skipped has case. -/
def startsCased (cs : List Char) : Bool :=
  match cs.dropWhile caseIgnorable.contains with
  | [] => false
  | c :: _ => cased.contains c

/-- Lower-case form of the characters after those of `before`, which are
given last first. A capital sigma ends a word when a character with case
stands before it and none behind. -/
def lowerFrom : (before : List Char) → List Char → List Char
  | _, [] => []
  | before, c :: rest =>
    let form :=
      if c == 'Σ' then
        if startsCased before && !startsCased rest then ['ς'] else ['σ']
      else lowerChar c
    form ++ lowerFrom (c :: before) rest

/-- Lower-case form of a text. -/
def lower (s : String) : String :=
  String.ofList (lowerFrom [] s.toList)

/-- Upper-case form of a text. -/
def upper (s : String) : String :=
  String.ofList (s.toList.flatMap upperChar)

/-- The first character in title case and the rest in lower case. -/
def capitalize (s : String) : String :=
  match s.toList with
  | [] => ""
  | c :: rest => String.ofList (titleChar c ++ lowerFrom [c] rest)

/-- The first character in upper case and the rest as it is. -/
def upperFirst (s : String) : String :=
  match s.toList with
  | [] => ""
  | c :: rest => String.ofList (upperChar c ++ rest)

/-- The first character in lower case and the rest as it is. -/
def lowerFirst (s : String) : String :=
  match s.toList with
  | [] => ""
  | c :: rest => String.ofList (lowerFrom [] [c] ++ rest)

/-- Lower-case form of the ASCII letters alone. -/
def asciiLower (s : String) : String :=
  String.ofList (s.toList.map Char.toLower)

/-- Drops white space at both ends. -/
def strip (s : String) : String :=
  String.ofList ((s.toList.dropWhile blank.contains).reverse.dropWhile blank.contains).reverse

end RecordSchema.Text

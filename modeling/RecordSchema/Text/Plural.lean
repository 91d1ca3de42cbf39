import RecordSchema.Text.Case

/-!
# English plurals

A list of rules, tried in order. A rule looks at the end of the word: it
names the endings it replaces, what has to stand before them, and what
takes their place. Letters that stay keep their case.
-/

namespace RecordSchema.Plural

/-- What has to stand before a replaced ending. -/
inductive Context where
  /-- Anything, also nothing. -/
  | anything
  /-- One of these texts, in any case. -/
  | oneOf (texts : List String)
  /-- One of these texts, in any case, at the start of the word. -/
  | whole (texts : List String)
  /-- One of these texts, or one character other than the given ones. -/
  | orOther (texts : List String) (excluded : String)

/-- A rule: in `context`, one of `endings` gives way to `plural`. With
`initial`, the ending has to begin with exactly that character. -/
structure Rule where
  context : Context
  endings : List String
  plural : String
  initial : Option Char := none

/-- The characters of a word with ASCII letters in lower case. -/
def folded (cs : List Char) : List Char :=
  cs.map Char.toLower

/-- Whether the characters before an ending satisfy the context. -/
def Context.accepts (stem : List Char) : Context → Bool
  | .anything => true
  | .oneOf texts => texts.any fun t => t.toList.isSuffixOf (folded stem)
  | .whole texts => texts.any fun t => t.toList == folded stem
  | .orOther texts excluded =>
    (texts.any fun t => t.toList.isSuffixOf (folded stem)) ||
      match stem.getLast? with
      | some c => !excluded.toList.contains c.toLower
      | none => false

/-- The word with the ending replaced, when the rule applies. -/
def Rule.apply? (rule : Rule) (word : List Char) : Option (List Char) :=
  rule.endings.findSome? fun ending =>
    let n := word.length - ending.length
    let stem := word.take n
    let tail := word.drop n
    if ending.toList == folded tail && rule.context.accepts stem &&
        (rule.initial.isNone || tail.head? == rule.initial) then
      some (stem ++ rule.plural.toList)
    else none

/-- The rules, irregular words first. -/
def rules : List Rule := [
  ⟨.oneOf ["z"], ["ombies", "ombie"], "ombies", none⟩,
  ⟨.anything, ["kine"], "kine", some 'k'⟩,
  ⟨.anything, ["kine"], "Kine", some 'K'⟩,
  ⟨.anything, ["cow"], "kine", some 'c'⟩,
  ⟨.anything, ["cow"], "Kine", some 'C'⟩,
  ⟨.oneOf ["m"], ["oves", "ove"], "oves", none⟩,
  ⟨.oneOf ["s"], ["exes", "ex"], "exes", none⟩,
  ⟨.oneOf ["c"], ["hildren", "hild"], "hildren", none⟩,
  ⟨.oneOf ["h"], ["umans", "uman"], "umans", none⟩,
  ⟨.oneOf ["m"], ["en", "an"], "en", none⟩,
  ⟨.oneOf ["p"], ["eople"], "eople", none⟩,
  ⟨.oneOf ["p"], ["erson"], "eople", none⟩,
  ⟨.oneOf ["quiz"], [""], "zes", none⟩,
  ⟨.whole ["oxen"], [""], "", none⟩,
  ⟨.whole ["ox"], [""], "en", none⟩,
  ⟨.oneOf ["m", "l"], ["ice"], "ice", none⟩,
  ⟨.oneOf ["m", "l"], ["ouse"], "ice", none⟩,
  ⟨.oneOf ["passer"], ["sby", "by"], "sby", none⟩,
  ⟨.oneOf ["matr", "vert", "ind"], ["ix", "ex"], "ices", none⟩,
  ⟨.oneOf ["x", "ch", "ss", "sh"], [""], "es", none⟩,
  ⟨.orOther ["qu"] "aeiouy", ["y"], "ies", none⟩,
  ⟨.oneOf ["hive"], [""], "s", none⟩,
  ⟨.oneOf ["l", "r"], ["f"], "ves", none⟩,
  ⟨.orOther [] "f", ["fe"], "ves", none⟩,
  ⟨.anything, ["sis"], "ses", none⟩,
  ⟨.oneOf ["t", "i"], ["a"], "a", none⟩,
  ⟨.oneOf ["t", "i"], ["um"], "a", none⟩,
  ⟨.oneOf ["buffal", "potat", "tomat"], ["o"], "oes", none⟩,
  ⟨.oneOf ["bu"], ["s"], "ses", none⟩,
  ⟨.oneOf ["alias", "status"], [""], "es", none⟩,
  ⟨.oneOf ["octop", "vir"], ["i"], "i", none⟩,
  ⟨.oneOf ["octop", "vir"], ["us"], "i", none⟩,
  ⟨.whole ["ax", "test"], ["is"], "es", none⟩,
  ⟨.anything, ["s"], "s", none⟩]

/-- Words that have no plural of their own. -/
def uncountable : List String := [
  "equipment", "fish", "information", "jeans", "money", "rice", "series", "sheep", "species"]

/-- The plural of a word; a word that no rule knows takes an `s`. -/
def pluralize (word : String) : String :=
  if word.isEmpty || uncountable.contains (Text.lower word) then word
  else
    match rules.findSome? fun r => r.apply? word.toList with
    | some cs => String.ofList cs
    | none => word ++ "s"

end RecordSchema.Plural

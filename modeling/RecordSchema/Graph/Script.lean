import RecordSchema.Obligation
import RecordSchema.Text.Name
import RecordSchema.Text.Quoted

/-!
# Scripts of resolvers

The function behind an output of the API takes the arguments of the
output as parameters, so it is made from a text: the script of its
signature. The names go into the text as they are. The host reads the
script word by word, and a name that it does not find there as a single
word, or as a word that is reserved, spoils the script.
-/

namespace RecordSchema.Graph

/-! ## Tokens -/

/-- A token of a script. Quotes are marks like any other: what a script quotes are words. -/
inductive Token where
  | word (letters : List Char)
  | mark (c : Char)
deriving DecidableEq

/-- A character that may begin a word; letters beyond ASCII are as good as any. -/
def isWordInitial (c : Char) : Bool :=
  Name.isInitial c || 128 ≤ c.toNat

/-- A character of a word. -/
def isWordChar (c : Char) : Bool :=
  Name.isFollowing c || 128 ≤ c.toNat

/-- Whether a word may stand for a name: it begins with no digit and is not reserved. -/
def mayName (s : String) : Bool :=
  (match s.toList with
    | [] => false
    | c :: _ => isWordInitial c)
  && !Name.reserved.contains s

def isNameWord (s : String) : Bool :=
  s.toList.all isWordChar && mayName s

/-- The token of the word that ends here, if any. -/
def wordToken (w : List Char) : List Token :=
  if w.isEmpty then [] else [.word w]

/-- The tokens of a text behind the letters `w` of a word. Blanks only end words. -/
def tokensFrom (w : List Char) : List Char → List Token
  | [] => wordToken w
  | c :: r =>
    if isWordChar c then tokensFrom (w ++ [c]) r
    else wordToken w ++ if c == ' ' then tokensFrom [] r else .mark c :: tokensFrom [] r

def tokens (cs : List Char) : List Token :=
  tokensFrom [] cs

/-! ## Signatures -/

/-- A parameter of a resolver. -/
structure Parameter where
  name : String
  /-- Whether it may be left out. -/
  hasDefault : Bool

/-- The name of a resolver and its parameters behind the object and the request. -/
structure Signature where
  name : String
  params : List Parameter

namespace Parameter

/-- The parameter in the head of a script; its default is kept in a table. -/
def declaration (p : Parameter) : List Char :=
  ", ".toList ++ p.name.toList
    ++ if p.hasDefault then "=_defaults[".toList ++ (Text.quote p.name).toList ++ "]".toList else []

/-- The parameter as it is handed on, by name. -/
def passing (p : Parameter) : List Char :=
  (Text.quote p.name).toList ++ ": ".toList ++ p.name.toList

def word (p : Parameter) : Token :=
  .word p.name.toList

def quoted (p : Parameter) : List Token :=
  [.mark '\'', p.word, .mark '\'']

/-- The tokens that declare the parameter. -/
def declared (p : Parameter) : List Token :=
  [.mark ',', p.word]
    ++ if p.hasDefault then
        [.mark '=', .word "_defaults".toList, .mark '['] ++ p.quoted ++ [.mark ']']
      else []

/-- The tokens that hand the parameter on. -/
def passed (p : Parameter) : List Token :=
  p.quoted ++ [.mark ':', p.word]

end Parameter

namespace Signature

/-- The signature of the function behind an output with arguments. -/
def ofArgs (name : String) (args : List (String × Arg)) : Signature where
  name
  params := args.map fun (n, a) => ⟨n, a.hasDefault⟩

/-- The script behind the name of the function. -/
def scriptBehind (params : List Parameter) : List Char :=
  (if params.isEmpty then "(self, info" else "(self, info, *").toList
    ++ params.flatMap Parameter.declaration
    ++ "):\n    return await _impl(self, info, \x7b".toList
    ++ ", ".toList.intercalate (params.map Parameter.passing)
    ++ "\x7d)\n".toList

/-- The script of a signature. -/
def script (g : Signature) : List Char :=
  "async def ".toList ++ g.name.toList ++ scriptBehind g.params

/-- The object and the request, in brackets that are still open. -/
def opening : List Token :=
  [.mark '(', .word "self".toList, .mark ',', .word "info".toList]

/-- The tokens that a definition has behind the name of the function. -/
def definitionBehind (params : List Parameter) : List Token :=
  opening ++ (if params.isEmpty then [] else [.mark ',', .mark '*'])
    ++ params.flatMap Parameter.declared
    ++ [.mark ')', .mark ':', .mark '\n', .word "return".toList, .word "await".toList,
      .word "_impl".toList]
    ++ opening ++ [.mark ',', .mark '\x7b']
    ++ [Token.mark ','].intercalate (params.map Parameter.passed)
    ++ [.mark '\x7d', .mark ')', .mark '\n']

/-- The tokens that define a function of the signature. -/
def definition (g : Signature) : List Token :=
  [.word "async".toList, .word "def".toList, .word g.name.toList] ++ definitionBehind g.params

def paramNames (g : Signature) : List String :=
  "self" :: "info" :: g.params.map (·.name)

/-- Whether the host finds in the script what the signature says: the definition of a function,
with words that may stand for names and no parameter twice. -/
def isReadable (g : Signature) : Bool :=
  tokens g.script == g.definition && (g.name :: g.paramNames).all mayName
    && decide g.paramNames.Nodup

end Signature

end RecordSchema.Graph

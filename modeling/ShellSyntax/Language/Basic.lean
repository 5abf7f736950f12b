import ShellSyntax.Rule
import ShellSyntax.Text.Lowercase

/-!
Languages, as tables of rules.

* `Bracket`: a pair of bracket characters and the kind of their tokens;
* `Language`: for each state the rules to try, in order, with the words and brackets that rules
  classify by;
* `Language.identifierKind`, `Language.bracketKind`: the kind of a word and of a bracket;
* `Language.label`: what an editor calls a kind in this language.
-/

namespace ShellSyntax

/-- A pair of brackets, and the kind of either. -/
structure Bracket where
  opener : Char
  closer : Char
  kind : TokenKind
deriving DecidableEq, Repr

/-- A language: its names, its words, its brackets, and its rules. -/
structure Language where
  name : String
  /-- The ends of names of files in this language. -/
  extensions : List Text
  /-- The programs that run files in this language. -/
  interpreters : List Text
  /-- What labels of token kinds end in. -/
  labelSuffix : String
  /-- The keywords in lowercase. -/
  keywords : List Text
  /-- The built-in commands in lowercase. -/
  builtins : List Text
  brackets : List Bracket
  /-- The rules of a state, the first to try first. -/
  rules : State → List Rule

namespace Language

/-- A language without words and rules. -/
def named (name : String) : Language :=
  { name, extensions := [], interpreters := [], labelSuffix := "", keywords := [], builtins := [],
    brackets := [], rules := fun _ => [] }

/-- The language with more keywords. -/
def addKeywords (l : Language) (words : List Text) : Language :=
  { l with keywords := l.keywords ++ words.map Text.lowercase }

/-- The language with more built-in commands. -/
def addBuiltins (l : Language) (words : List Text) : Language :=
  { l with builtins := l.builtins ++ words.map Text.lowercase }

/-- The language with other rules for a state. -/
def setRules (l : Language) (state : State) (rules : List Rule) : Language :=
  { l with rules := fun s => if s = state then rules else l.rules s }

/-- The kind of a word, whatever its letter case. Keywords go before built-in commands. -/
def identifierKind (l : Language) (word : Text) : TokenKind :=
  if word.lowercase ∈ l.keywords then .keyword
  else if word.lowercase ∈ l.builtins then .builtin
  else .plain

/-- The kind of a bracket: that of the first pair it belongs to. -/
def bracketKind (l : Language) (c : Char) : TokenKind :=
  match l.brackets.find? fun b => b.opener = c || b.closer = c with
  | some b => b.kind
  | none => .plain

/-- The label of a kind. -/
def label (l : Language) (kind : TokenKind) : String := kind.label l.labelSuffix

end Language

end ShellSyntax

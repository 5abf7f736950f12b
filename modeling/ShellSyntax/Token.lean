import ShellSyntax.Style
import ShellSyntax.Text.Cursor

/-!
Tokens: stretches of a line with a meaning.

* `TokenKind`: what a stretch is, with its name, the label an editor gets to see, and the style it
  has unless a theme says otherwise;
* `Token`: a span of a line and its kind.
-/

namespace ShellSyntax

/-- What a stretch of shell text is. -/
inductive TokenKind where
  | plain
  | white
  | metatag
  | comment
  | keyword
  | builtin
  | string
  | heredocOperator
  | heredoc
  | heredocDelimiter
  | parameter
  | predefinedParameter
  | delimiter
  | bracket
  | parenthesis
  | square
  | flag
  | number
  | float
  | hex
deriving DecidableEq, Repr

namespace TokenKind

/-- All kinds. -/
def all : List TokenKind :=
  [plain, white, metatag, comment, keyword, builtin, string, heredocOperator, heredoc,
   heredocDelimiter, parameter, predefinedParameter, delimiter, bracket, parenthesis, square,
   flag, number, float, hex]

theorem mem_all (k : TokenKind) : k ∈ all := by
  cases k <;> decide

/-- The name of a kind; plain text has none. -/
def name : TokenKind → String
  | plain => ""
  | white => "white"
  | metatag => "metatag"
  | comment => "comment"
  | keyword => "keyword"
  | builtin => "type.identifier"
  | string => "string"
  | heredocOperator => "constants"
  | heredoc => "string.heredoc"
  | heredocDelimiter => "string.heredoc.delimiter"
  | parameter => "variable"
  | predefinedParameter => "variable.predefined"
  | delimiter => "delimiter"
  | bracket => "delimiter.bracket"
  | parenthesis => "delimiter.parenthesis"
  | square => "delimiter.square"
  | flag => "attribute.name"
  | number => "number"
  | float => "number.float"
  | hex => "number.hex"

/-- The kind that settings call by a name: plain text is called `default`. -/
def ofName? (name : Text) : Option TokenKind :=
  if name = "default".toList then some plain
  else all.find? fun k => k ≠ plain ∧ k.name.toList = name

/-- The label of a kind in a language whose labels end in `suffix`; plain text has no label. -/
def label (suffix : String) : TokenKind → String
  | plain => ""
  | k => k.name ++ suffix

/-- The style of a kind that no theme overrides. -/
def defaultStyle : TokenKind → Style
  | plain | white => .plain
  | metatag => .colored .brightMagenta
  | comment => { Style.colored .brightBlack with italic := true }
  | keyword => { Style.colored .magenta with bold := true }
  | builtin => .colored .yellow
  | string | heredocDelimiter => .colored .green
  | heredocOperator => .colored .brightRed
  | heredoc => { Style.colored .green with bold := true }
  | parameter => .colored .cyan
  | predefinedParameter => .colored .brightCyan
  | delimiter => .colored .brightWhite
  | bracket | parenthesis | square => .colored .white
  | flag => .colored .brightBlue
  | number | float | hex => .colored .brightYellow

end TokenKind

/-- A span of a line and what it is. -/
structure Token extends Span where
  kind : TokenKind
deriving DecidableEq, Repr

namespace Token

/-- The token of a kind from one offset to another. -/
def ofSpan (s : Span) (kind : TokenKind) : Token := ⟨s, kind⟩

/-- The number of bytes a token covers. -/
def size (t : Token) : Nat := t.stop - t.start

/-- Whether a token covers nothing. -/
def isEmpty (t : Token) : Bool := t.stop ≤ t.start

/-- The characters a token covers, if its ends are places of the line in order. -/
def text? (t : Token) (line : Text) : Option Text := line.slice? t.toSpan

end Token

end ShellSyntax

import ShellSyntax.Rule

/-!
The rules of the shell language.

In every list the first rule that matches wins, so that a decimal fraction is tried before a
hexadecimal number, and that before a plain one.

* `rootRules`: outside of quotes;
* `singleQuotedRules`, `doubleQuotedRules`: within quotes;
* `parameterBodyRules`: behind a dollar sign and a quote or bracket, up to its counterpart;
* `heredocRules`: the lines of a here-document, which look like those outside of quotes up to the
  line that holds its tag.
-/

namespace ShellSyntax.Shell

/-! ### Characters -/

/-- The single quote. -/
def singleQuote : Char := '\x27'

/-- The double quote. -/
def doubleQuote : Char := '\x22'

/-- The grave accent. -/
def backquote : Char := '\x60'

/-- Decimal digits. -/
def digit : CharSet := .of [('0', '9')]

/-- Digits of hexadecimal numbers. -/
def hexDigit : CharSet := .of [('0', '9'), ('A', 'F'), ('a', 'f')]

/-- Letters of ASCII, and the two other characters that are case variants of such: the long s and
the kelvin sign. -/
def letter : CharSet := .of [('A', 'Z'), ('a', 'z'), ('\u017f', '\u017f'), ('\u212a', '\u212a')]

/-- What a name consists of. -/
def nameChar : CharSet := letter.union (.of [('0', '9'), ('_', '_')])

/-- What the tag of a here-document consists of. -/
def tagChar : CharSet := nameChar.union (.single '-')

/-- What has a meaning of its own in the body of an expansion. -/
def bodyPunctuation : List Char := ['#', ':', '%', '*', '@', '-', '!', '_']

open Pattern

/-- Takes a character. -/
def char (c : Char) : Pattern := one (.single c)

/-- Takes one of some characters. -/
def oneOf (cs : List Char) : Pattern := one (.ofList cs)

/-- A rule that gives one token of a kind. -/
def fixed (name : String) (kind : TokenKind) (pattern : Pattern) : Rule :=
  .anchored name pattern (.fixed kind)

/-! ### Blanks, comments and numbers -/

/-- Blanks, and the comments at the start of a line. -/
def blankRules : List Rule :=
  [fixed "white" .white (plus (one .blanks)),
   (fixed "shebang" .metatag
     (sequence [char '#', char '!', star (one .inLine), atEnd])).atLineStart,
   (fixed "comment" .comment (sequence [char '#', star (one .inLine), atEnd])).atLineStart]

/-- Numbers: fractions, hexadecimal numbers, and whole numbers. -/
def numberRules : List Rule :=
  [fixed "float" .float
     (sequence [star (one digit), char '.', plus (one digit),
       opt (group 0 (sequence
         [oneOf ['e', 'E'], opt (oneOf ['-', '+']), plus (one digit)]))]),
   fixed "hex" .hex
     (sequence [char '0', oneOf ['x', 'X'],
       star (one (hexDigit.union (.single '_'))), one hexDigit]),
   fixed "integer" .number (plus (one digit))]

/-! ### Parameters and quotes -/

/-- Parameters that are a dollar sign and a name, a number or a mark. -/
def simpleParameterRules : List Rule :=
  [fixed "positional" .predefinedParameter (sequence [char '$', plus (one digit)]),
   fixed "named" .parameter (sequence [char '$', plus (one nameChar)]),
   fixed "special" .parameter
     (sequence [char '$', oneOf ['*', '@', '#', '?', '-', '$', '!', '0', '_']])]

/-- The openings of bodies in brackets. -/
def expansionRules : List Rule :=
  [(fixed "command_substitution" .parameter
     (sequence [char '$', char '('])).pushing .substitution,
   (fixed "expansion" .parameter
     (sequence [char '$', char '\x7b'])).pushing .expansion]

/-- All parameters. -/
def parameterRules : List Rule :=
  simpleParameterRules ++
  [(fixed "ansi_c_quote" .parameter
     (sequence [char '$', char singleQuote])).pushing .ansiQuoted,
   (fixed "locale_quote" .parameter
     (sequence [char '$', char doubleQuote])).pushing .localeQuoted] ++
  expansionRules

/-- The openings of quotes. -/
def quoteRules : List Rule :=
  [(fixed "single_quote" .string (char singleQuote)).pushing .singleQuoted,
   (fixed "double_quote" .string (char doubleQuote)).pushing .doubleQuoted]

/-- Within single quotes nothing has a meaning but the closing quote. -/
def singleQuotedRules : List Rule :=
  [(fixed "single_quote_end" .string (char singleQuote)).poppingAll,
   fixed "single_quote_text" .string (plus (one (.except [singleQuote])))]

/-- Within double quotes there are parameters. A dollar sign before a quote has no meaning there,
nor has one that begins no parameter. -/
def doubleQuotedRules : List Rule :=
  (fixed "double_quote_end" .string (char doubleQuote)).poppingAll ::
  simpleParameterRules ++ expansionRules ++
  [fixed "double_quote_text" .string (plus (one (.except [doubleQuote, '$']))),
   fixed "double_quote_dollar" .string (char '$')]

/-- The body of an expansion that `closer` ends. -/
def parameterBodyRules (closer : Char) : List Rule :=
  [fixed "parameter_text" .parameter (plus (one (.except (bodyPunctuation ++ [closer])))),
   fixed "parameter_punctuation" .delimiter (oneOf bodyPunctuation),
   (fixed "parameter_end" .parameter (char closer)).popping]

/-! ### Here-documents -/

/-- The kinds of the parts of a here-document's opening: operator, blanks, quote, tag, quote. -/
def openingKinds : List TokenKind :=
  [.heredocOperator, .white, .heredocDelimiter, .heredoc, .heredocDelimiter]

/-- The part of a here-document's opening that is its tag. -/
def tagGroup : Nat := 3

/-- An operator, with blanks, quotes and a tag behind it. -/
def opening (operator : Pattern) : Pattern :=
  let quote := CharSet.ofList [singleQuote, doubleQuote, backquote]
  sequence
    [group 0 operator, group 1 (star (one .blanks)), group 2 (opt (one quote)),
     group 3 (plus (one tagChar)), group 4 (opt (one quote))]

/-- The opening of a here-document. A here-string has no body, so no state is entered for it. -/
def openingRules : List Rule :=
  [.anchored "herestring"
     (opening (sequence [char '<', char '<', char '<']))
     (.groups openingKinds),
   ((Rule.anchored "heredoc"
     (opening (sequence [char '<', char '<', opt (char '-')]))
     (.groups openingKinds)).pushing .heredoc).capturingTag tagGroup]

/-! ### Lists of rules -/

/-- The rules outside of quotes. -/
def rootRules : List Rule :=
  blankRules ++
  [.anchored "identifier" (cat (one letter) (star (one nameChar))) .identifier] ++
  quoteRules ++ parameterRules ++ openingRules ++
  [.anchored "brackets" (oneOf ['\x7b', '\x7d', '[', ']', '(', ')']) .bracket,
   fixed "flag" .flag (cat (plus (char '-')) (plus (one nameChar))),
   fixed "symbols" .delimiter (plus (oneOf
     ['=', '>', '<', '!', '~', '?', '&', '|', '+', '-', '*', '/', '^', ';', '.', ',']))] ++
  numberRules ++
  [fixed "separator" .delimiter (oneOf [',', ';'])]

/-- The rules in the lines of a here-document. -/
def heredocRules : List Rule :=
  ((fixed "heredoc_end" .heredoc (sequence
     [star (one .blanks), plus (one tagChar), star (one .blanks), atEnd])).atLineStart
       |>.closingTag |>.popping) :: rootRules

/-- The rules of each state. -/
def rules : State → List Rule
  | .root => rootRules
  | .singleQuoted => singleQuotedRules
  | .doubleQuoted => doubleQuotedRules
  | .heredoc => heredocRules
  | .ansiQuoted => parameterBodyRules singleQuote
  | .localeQuoted => parameterBodyRules doubleQuote
  | .substitution => parameterBodyRules ')'
  | .expansion => parameterBodyRules '\x7d'

end ShellSyntax.Shell

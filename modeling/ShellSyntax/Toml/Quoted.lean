import ShellSyntax.Toml.Value

/-!
Strings in quotes.

A string stands between double quotes, where a backslash begins an escape, or between single quotes,
where nothing has a meaning but the closing quote. Three quotes of either sort enclose a string that
may hold line ends; a line end right behind them does not count.

* `Quoted.read?`: the string that a text starts with;
* `Quoted.write`: a string in the simplest form that shows it as it is.
-/

namespace ShellSyntax.Toml.Quoted

/-- The single quote. -/
def mark : Char := '\x27'

/-! ### Reading -/

/-- Control characters have no place in a string, save for the tab. -/
def mayStand (c : Char) : Bool :=
  c = '\t' || (decide (0x20 ≤ c.toNat) && c.toNat ≠ 0x7F)

/-- The character that a backslash and another character stand for. -/
def escape? : Char → Option Char
  | 'b' => some '\x08'
  | 't' => some '\t'
  | 'n' => some '\n'
  | 'f' => some '\x0c'
  | 'r' => some '\r'
  | '"' => some '"'
  | '\\' => some '\\'
  | _ => none

/-- The value of a hexadecimal digit. -/
def hexDigit? (c : Char) : Option Nat :=
  if c.isDigit then some (c.toNat - 0x30)
  else if 'a' ≤ c ∧ c ≤ 'f' then some (c.toNat - 0x57)
  else if 'A' ≤ c ∧ c ≤ 'F' then some (c.toNat - 0x37)
  else none

/-- The character whose code point hexadecimal digits write. -/
def codePoint? (digits : List Char) : Option Char :=
  (digits.foldlM (fun n c => (hexDigit? c).map (n * 16 + ·)) 0).bind fun n =>
    if n.isValidChar then some (Char.ofNat n) else none

/-- The string with one more character in front. -/
def consTo (c : Char) (r : Text × Text) : Text × Text := (c :: r.1, r.2)

/-- The string up to a closing double quote, and the text behind it. -/
def readBasic? : Text → Option (Text × Text)
  | [] => none
  | '"' :: t => some ([], t)
  | '\\' :: 'u' :: a :: b :: c :: d :: t =>
    (codePoint? [a, b, c, d]).bind fun x => (readBasic? t).map (consTo x)
  | '\\' :: 'U' :: a :: b :: c :: d :: e :: f :: g :: h :: t =>
    (codePoint? [a, b, c, d, e, f, g, h]).bind fun x => (readBasic? t).map (consTo x)
  | '\\' :: c :: t => (escape? c).bind fun x => (readBasic? t).map (consTo x)
  | c :: t => if c ≠ '\\' ∧ mayStand c then (readBasic? t).map (consTo c) else none

/-- The string up to a closing single quote, and the text behind it. -/
def readLiteral? : Text → Option (Text × Text)
  | [] => none
  | c :: t =>
    if c = mark then some ([], t)
    else if mayStand c then (readLiteral? t).map (consTo c)
    else none

/-- Whether only spaces and tabs stand before the next line end. -/
def endsLine (t : Text) : Bool :=
  match t.dropWhile fun c => c = ' ' || c = '\t' with
  | '\n' :: _ | '\r' :: '\n' :: _ => true
  | _ => false

/-- The string up to three closing double quotes, and the text behind them. One or two double quotes
right before the closing ones belong to the string. While `skipping`, blanks and line ends do not
count; a backslash at the end of a line begins that. -/
def readLongBasic? (skipping : Bool) : Text → Option (Text × Text)
  | [] => none
  | '"' :: '"' :: '"' :: '"' :: '"' :: t => some (['"', '"'], t)
  | '"' :: '"' :: '"' :: '"' :: t => some (['"'], t)
  | '"' :: '"' :: '"' :: t => some ([], t)
  | '\\' :: 'u' :: a :: b :: c :: d :: t =>
    (codePoint? [a, b, c, d]).bind fun x => (readLongBasic? false t).map (consTo x)
  | '\\' :: 'U' :: a :: b :: c :: d :: e :: f :: g :: h :: t =>
    (codePoint? [a, b, c, d, e, f, g, h]).bind fun x => (readLongBasic? false t).map (consTo x)
  | '\\' :: c :: t =>
    if endsLine (c :: t) then readLongBasic? true (c :: t)
    else (escape? c).bind fun x => (readLongBasic? false t).map (consTo x)
  | '\r' :: '\n' :: t =>
    if skipping then readLongBasic? true t else (readLongBasic? false t).map (consTo '\n')
  | c :: t =>
    if skipping && (c = ' ' || c = '\t' || c = '\n') then readLongBasic? true t
    else if c ≠ '\\' ∧ (mayStand c ∨ c = '\n') then (readLongBasic? false t).map (consTo c)
    else none

/-- The string up to three closing single quotes, and the text behind them. One or two single quotes
right before the closing ones belong to the string. -/
def readLongLiteral? : Text → Option (Text × Text)
  | [] => none
  | '\x27' :: '\x27' :: '\x27' :: '\x27' :: '\x27' :: t => some ([mark, mark], t)
  | '\x27' :: '\x27' :: '\x27' :: '\x27' :: t => some ([mark], t)
  | '\x27' :: '\x27' :: '\x27' :: t => some ([], t)
  | '\r' :: '\n' :: t => (readLongLiteral? t).map (consTo '\n')
  | c :: t => if mayStand c ∨ c = '\n' then (readLongLiteral? t).map (consTo c) else none

/-- The text without a line end at its start. -/
def dropLineEnd : Text → Text
  | '\n' :: t | '\r' :: '\n' :: t => t
  | t => t

/-- The string that a text starts with, in any form, and the text behind it. -/
def read? : Text → Option (Text × Text)
  | '"' :: '"' :: '"' :: t => readLongBasic? false (dropLineEnd t)
  | '"' :: t => readBasic? t
  | '\x27' :: '\x27' :: '\x27' :: t => readLongLiteral? (dropLineEnd t)
  | '\x27' :: t => readLiteral? t
  | _ => none

/-! ### Writing -/

/-- The forms of a string. -/
inductive Form where
  | basic
  | literal
  | longBasic
  | longLiteral
deriving DecidableEq, Repr

/-- The length of the longest run of a character. -/
def longestRun (c : Char) (t : Text) : Nat := go 0 t
where
  /-- The longest run, if `n` such characters stand right before the text. -/
  go (n : Nat) : Text → Nat
    | [] => n
    | x :: t => if x = c then go (n + 1) t else max n (go 0 t)

/-- Whether a character has to be escaped wherever it stands, so that no literal form can hold it:
control characters, save for the tab and the line feed. -/
def needsEscape (c : Char) : Bool :=
  c ≠ '\t' && c ≠ '\n' && (decide (c.toNat < 0x20) || c.toNat = 0x7F)

/-- The form in which a string needs the fewest escapes: between double quotes if nothing in it has
a meaning there; else between single quotes; else a long form, first with double quotes; and only
then a form with escapes. -/
def form (t : Text) : Form :=
  let code := t.any needsEscape
  let slash := t.contains '\\'
  let quote := t.contains '"'
  let single := t.contains mark
  let line := t.contains '\n'
  if !code && !slash && !quote && !line then .basic
  else if !code && !single && !line then .literal
  else if !code && !slash && longestRun '"' t ≤ 2 then .longBasic
  else if !code && longestRun mark t ≤ 2 then .longLiteral
  else if line then .longBasic
  else .basic

/-- A hexadecimal digit. -/
def hexDigit (n : Nat) : Char :=
  if n < 10 then Char.ofNat (0x30 + n) else Char.ofNat (0x37 + n)

/-- A character between double quotes, where line feeds stand for themselves if the string is
`long`. Double quotes are not escaped here. -/
def escapeChar (long : Bool) (c : Char) : Text :=
  if c = '\\' then ['\\', '\\']
  else if c = '\x08' then ['\\', 'b']
  else if c = '\t' then ['\\', 't']
  else if c = '\x0c' then ['\\', 'f']
  else if c = '\r' then ['\\', 'r']
  else if c = '\n' ∧ ¬ long then ['\\', 'n']
  else if needsEscape c then
    ['\\', 'u', '0', '0', hexDigit (c.toNat / 16), hexDigit (c.toNat % 16)]
  else [c]

/-- The characters of a string between double quotes. In a short string every double quote is
escaped, in a long one each that would be the third in a row; `run` counts those just written. -/
def escapeAll (long : Bool) (run : Nat) : Text → Text
  | [] => []
  | c :: t =>
    if c = '"' then
      if !long || run = 2 then '\\' :: '"' :: escapeAll long 0 t
      else '"' :: escapeAll long (run + 1) t
    else escapeChar long c ++ escapeAll long 0 t

/-- A string in a form. Behind the opening quotes of a long form stands a line end if there is one
in the string, which may start with one. -/
def writeAs (f : Form) (t : Text) : Text :=
  let head : Text := if t.contains '\n' then ['\n'] else []
  match f with
  | .basic => '"' :: escapeAll false 0 t ++ ['"']
  | .literal => mark :: t ++ [mark]
  | .longBasic => ['"', '"', '"'] ++ head ++ escapeAll true 0 t ++ ['"', '"', '"']
  | .longLiteral => [mark, mark, mark] ++ head ++ t ++ [mark, mark, mark]

/-- A string in its simplest form. -/
def write (t : Text) : Text := writeAs (form t) t

end ShellSyntax.Toml.Quoted

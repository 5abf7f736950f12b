import ShellSyntax.Toml.Quoted
import ShellSyntax.Toml.Scalar
import ShellSyntax.Toml.Entry

/-!
The statements of a TOML document.

* `Statement`: a header, or a key with its value;
* `Statement.readAll?`: the statements of a text, of which each ends its line.

Arrays and tables in brackets may lie within each other up to `maxNesting` deep, and a dotted key
has at most as many parts.
-/

namespace ShellSyntax.Toml

/-- A statement of a document. -/
inductive Statement where
  /-- The entries that follow belong to the table at a path. -/
  | header (path : List Text) (key : Text)
  /-- The entries that follow belong to a new row of the array of tables at a path. -/
  | row (path : List Text) (key : Text)
  /-- A key is set to a value. -/
  | entry (path : List Text) (key : Text) (v : Value)

/-- How deep brackets may lie within each other, and how many parts a key may have. -/
def maxNesting : Nat := 79

/-! ### Blanks and comments -/

/-- Spaces and tabs, the blanks within a line. -/
def isSpace (c : Char) : Bool := c = ' ' || c = '\t'

/-- The text without the blanks of the line at its start. -/
def skipSpace (t : Text) : Text := t.dropWhile isSpace

/-- What follows the line end at the start of a text. Nothing follows the end of the text. -/
def lineEnd? : Text → Option Text
  | [] => some []
  | '\n' :: t | '\r' :: '\n' :: t => some t
  | _ => none

/-- What follows the rest of a line, which holds at most blanks and a comment. -/
def endLine? (t : Text) : Option Text :=
  match skipSpace t with
  | '#' :: t => lineEnd? (t.dropWhile Quoted.mayStand)
  | t => lineEnd? t

/-- The text without blanks, line ends and comments at its start, which a comment may have begun. -/
def skipLines? (inComment : Bool) : Text → Option Text
  | [] => some []
  | '\n' :: t | '\r' :: '\n' :: t => skipLines? false t
  | c :: t =>
    if inComment then if Quoted.mayStand c then skipLines? true t else none
    else if isSpace c then skipLines? false t
    else if c = '#' then skipLines? true t
    else some (c :: t)

/-! ### Keys -/

/-- The characters of a key without quotes. -/
def isKeyChar (c : Char) : Bool := c.isAlphanum || c = '_' || c = '-'

/-- One part of a key, and the text behind it. -/
def readKeyPart? : Text → Option (Text × Text)
  | '"' :: t => Quoted.readBasic? t
  | '\x27' :: t => Quoted.readLiteral? t
  | t => if (t.takeWhile isKeyChar).isEmpty then none else some (t.span isKeyChar)

/-- The parts of a key, of which there are at most `fuel`, and the text behind them. -/
def readParts? : Nat → Text → Option (List Text × Text)
  | 0, _ => none
  | fuel + 1, t =>
    (readKeyPart? (skipSpace t)).bind fun r =>
      match skipSpace r.2 with
      | '.' :: t => (readParts? fuel t).map fun s => (r.1 :: s.1, s.2)
      | t => some ([r.1], t)

/-- A key as the path to a table and a key in it, and the text behind it. -/
def readKey? (t : Text) : Option ((List Text × Text) × Text) :=
  (readParts? maxNesting t).bind fun r =>
    r.1.getLast?.map fun key => ((r.1.dropLast, key), r.2)

/-! ### Values -/

/-- What a text starts with when read as something, and the text behind it. -/
abbrev Reader (α : Type) := Text → Option (α × Text)

/-- The items of an array up to its closing bracket, at most `fuel` of them. Behind the last there
may be a comma. -/
def readItems? (item : Reader Value) : Nat → Reader (List Value)
  | 0, _ => none
  | fuel + 1, t =>
    (skipLines? false t).bind fun t =>
      match t with
      | ']' :: t => some ([], t)
      | t => (item t).bind fun r => (skipLines? false r.2).bind fun t =>
        match t with
        | ',' :: t => (readItems? item fuel t).map fun s => (r.1 :: s.1, s.2)
        | ']' :: t => some ([r.1], t)
        | _ => none

/-- An entry of a table: a key, an equals sign and a value, with blanks around each. -/
def readSetting? (value : Reader Value) : Reader ((List Text × Text) × Value) := fun t =>
  (readKey? t).bind fun r =>
    match r.2 with
    | '=' :: t => (value (skipSpace t)).map fun s => ((r.1, s.1), skipSpace s.2)
    | _ => none

/-- The entries of a table in curly brackets up to the closing one, at least one and at most `fuel`
of them. -/
def readEntries? (value : Reader Value) : Nat → Reader (List ((List Text × Text) × Value))
  | 0, _ => none
  | fuel + 1, t =>
    (readSetting? value t).bind fun r =>
      match r.2 with
      | ',' :: t => (readEntries? value fuel t).map fun s => (r.1 :: s.1, s.2)
      | '\x7d' :: t => some ([r.1], t)
      | _ => none

/-- A table in curly brackets, behind the opening one. -/
def readInline? (value : Reader Value) : Reader Value := fun t =>
  match skipSpace t with
  | '\x7d' :: t => some (.inlineTable [], t)
  | t => (readEntries? value t.length t).bind fun r =>
    (Table.ofEntries? r.1).map fun table => (.inlineTable table, r.2)

/-- A value, in which brackets lie at most `nesting` deep. -/
def readValue? : Nat → Reader Value
  | nesting, t =>
    match t with
    | '"' :: _ | '\x27' :: _ => (Quoted.read? t).map fun r => (.string r.1, r.2)
    | '[' :: t =>
      match nesting with
      | 0 => none
      | nesting + 1 =>
        (readItems? (readValue? nesting) (t.length + 1) t).map fun r => (.array r.1, r.2)
    | '\x7b' :: t =>
      match nesting with
      | 0 => none
      | nesting + 1 => readInline? (readValue? nesting) t
    | t => Scalar.read? t

/-! ### Statements -/

namespace Statement

/-- The statement that a text starts with, and what follows its line. -/
def read? : Reader Statement
  | '[' :: '[' :: t =>
    (readKey? t).bind fun r =>
      match r.2 with
      | ']' :: ']' :: t => (endLine? t).map fun t => (row r.1.1 r.1.2, t)
      | _ => none
  | '[' :: t =>
    (readKey? t).bind fun r =>
      match r.2 with
      | ']' :: t => (endLine? t).map fun t => (header r.1.1 r.1.2, t)
      | _ => none
  | t =>
    (readSetting? (readValue? maxNesting) t).bind fun r =>
      (endLine? r.2).map fun t => (entry r.1.1.1 r.1.1.2 r.1.2, t)

/-- The statements of a text of fewer than `fuel` characters. -/
def readLines? : Nat → Text → Option (List Statement)
  | 0, _ => none
  | fuel + 1, t =>
    (skipLines? false t).bind fun t =>
      if t.isEmpty then some []
      else (read? t).bind fun r => (readLines? fuel r.2).map (r.1 :: ·)

/-- The statements of a text. A byte order mark in front does not count. -/
def readAll? : Text → Option (List Statement)
  | '\ufeff' :: t => readLines? (t.length + 1) t
  | t => readLines? (t.length + 1) t

end Statement

end ShellSyntax.Toml

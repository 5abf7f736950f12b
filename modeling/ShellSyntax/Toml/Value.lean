import ShellSyntax.Text.Blank

/-!
Values of TOML documents.

* `Value`: what a key can be set to;
* `Table`: the entries of a table, sorted by key;
* `Table.get?`, `Table.put`: looking an entry up and setting it;
* `Value.boolean?`, `Value.string?`, `Value.items?`, `Value.entries?`: a value as one of a form.
-/

namespace ShellSyntax.Toml

/-- How a table came about, which decides what may be added to it later. -/
inductive Origin where
  /-- A header names the table, or it stands between curly brackets. -/
  | explicit
  /-- A header names a table inside it. -/
  | implied
  /-- A dotted key names an entry inside it. -/
  | dotted
deriving DecidableEq, Repr

/-- A value. Of numbers other than integers and of dates only the text is kept. -/
inductive Value where
  | string (t : Text)
  | integer (n : Int)
  | float (written : Text)
  | boolean (b : Bool)
  | dateTime (written : Text)
  | array (items : List Value)
  | inlineTable (entries : List (Text × Value))
  | table (origin : Origin) (entries : List (Text × Value))
  /-- An array of tables whose headers stand in double brackets, the latest first. -/
  | tables (rows : List (List (Text × Value)))

/-- The entries of a table, sorted by key. -/
abbrev Table := List (Text × Value)

namespace Table

/-- The value of a key. -/
def get? (t : Table) (key : Text) : Option Value := t.lookup key

/-- The table with the value of a key set. -/
def put (key : Text) (v : Value) : Table → Table
  | [] => [(key, v)]
  | e :: t =>
    match compare key e.1 with
    | .lt => (key, v) :: e :: t
    | .eq => (key, v) :: t
    | .gt => e :: put key v t

end Table

namespace Value

/-- The value as a truth value. -/
def boolean? : Value → Option Bool
  | boolean b => some b
  | _ => none

/-- The value as a text. -/
def string? : Value → Option Text
  | string t => some t
  | _ => none

/-- The value as an array. The rows of an array of tables count as items as well. -/
def items? : Value → Option (List Value)
  | array items => some items
  | tables rows => some (rows.reverse.map inlineTable)
  | _ => none

/-- The value as a table. -/
def entries? : Value → Option Table
  | inlineTable entries | table _ entries => some entries
  | _ => none

end Value

end ShellSyntax.Toml

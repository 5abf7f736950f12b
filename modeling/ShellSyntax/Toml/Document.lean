import ShellSyntax.Toml.Statement

/-!
TOML documents.

* `Document.read?`: the table that a text writes;
* `Document.write`: a table of tables as a text, each under a header of its own.
-/

namespace ShellSyntax.Toml.Document

/-! ### Reading -/

/-- The table of a document so far, and the path of the table that entries belong to. -/
structure Reading where
  table : Table
  current : List Text

/-- The document after one more statement. -/
def step? (r : Reading) : Statement → Option Reading
  | .header path key => (r.table.openHeader? path key).map fun t => ⟨t, path ++ [key]⟩
  | .row path key => (r.table.openRow? path key).map fun t => ⟨t, path ++ [key]⟩
  | .entry path key v =>
    (r.table.descend? false (Table.insert? path key v) r.current .explicit).map fun t =>
      ⟨t, r.current⟩

/-- The table that statements build up. -/
def ofStatements? (statements : List Statement) : Option Table :=
  (statements.foldlM step? ⟨[], []⟩).map (·.table)

/-- The table that a text writes. -/
def read? (t : Text) : Option Table :=
  (Statement.readAll? t).bind ofStatements?

/-! ### Writing -/

/-- A truth value. -/
def writeBoolean (b : Bool) : Text := if b then "true".toList else "false".toList

/-- An array of strings. -/
def writeStrings (items : List Text) : Text :=
  '[' :: List.intercalate [',', ' '] (items.map Quoted.write) ++ [']']

/-- An entry on a line of its own. -/
def writeEntry (key value : Text) : Text := key ++ " = ".toList ++ value ++ ['\n']

/-- The header of a table on a line of its own. -/
def writeHeader (key : Text) : Text := '[' :: key ++ [']', '\n']

end ShellSyntax.Toml.Document

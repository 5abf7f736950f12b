import ShellSyntax.Toml.Value

/-!
Building tables entry by entry.

* `Table.descend?`: changing the table that a path leads to, making tables on the way;
* `Table.insert?`: setting a key at a path, as dotted keys do. No key is set twice, and dotted keys
  only go through tables that dotted keys or headers further in have made;
* `Table.ofEntries?`: the table of a list of entries;
* `Table.openHeader?`, `Table.openRow?`: what headers of tables and of arrays of tables do.
-/

namespace ShellSyntax.Toml.Table

/-- Changes the table at a path from a table of a given origin, by a change that may look at how
that table came about. Tables that are missing on the way are made: by a dotted key, which may not
enter tables that a header or brackets have completed, or by a header. The way leads into the
latest row of an array of tables. -/
def descend? (dotted : Bool) (change : Origin → Table → Option Table) :
    List Text → Origin → Table → Option Table
  | [], origin, t => change origin t
  | key :: path, _, t =>
    match t.get? key with
    | none =>
      let origin := if dotted then Origin.dotted else .implied
      (descend? dotted change path origin []).map fun sub => t.put key (.table origin sub)
    | some (.table origin sub) =>
      if dotted && origin = .explicit then none
      else (descend? dotted change path origin sub).map fun sub => t.put key (.table origin sub)
    | some (.tables (latest :: rows)) =>
      (descend? dotted change path .explicit latest).map fun latest =>
        t.put key (.tables (latest :: rows))
    | some _ => none

/-- Sets a key that is not there yet. A dotted key must end in a table made by dotted keys, and a
plain one in a table that is not. -/
def insertNew? (dotted : Bool) (key : Text) (v : Value) (origin : Origin) (t : Table) :
    Option Table :=
  if decide (origin = .dotted) = dotted ∧ (t.get? key).isNone then some (t.put key v) else none

/-- Sets the key at the end of a dotted path from a table. -/
def insert? (path : List Text) (key : Text) (v : Value) (origin : Origin) (t : Table) :
    Option Table :=
  t.descend? true (insertNew? (!path.isEmpty) key v) path origin

/-- The table of a list of entries, each a path, a key and a value. -/
def ofEntries? (entries : List ((List Text × Text) × Value)) : Option Table :=
  entries.foldlM (fun t e => insert? e.1.1 e.1.2 e.2 .explicit t) []

/-- Opens the table that a header names. It must be new, or made by headers of tables in it. -/
def openHeader? (path : List Text) (key : Text) (t : Table) : Option Table :=
  descend? false
    (fun _ t => match t.get? key with
      | none => some (t.put key (.table .explicit []))
      | some (.table .implied sub) => some (t.put key (.table .explicit sub))
      | some _ => none)
    path .explicit t

/-- Adds a row to the array of tables that a header in double brackets names. It must be new, or
made by such headers. -/
def openRow? (path : List Text) (key : Text) (t : Table) : Option Table :=
  descend? false
    (fun _ t => match t.get? key with
      | none => some (t.put key (.tables [[]]))
      | some (.tables rows) => some (t.put key (.tables ([] :: rows)))
      | some _ => none)
    path .explicit t

end ShellSyntax.Toml.Table

import Std.Data.TreeMap
import ShellSyntax.Shell

/-!
The languages that are known, and how a document tells which one it is in.

* `Registry`: languages by name, and names by file extension and by interpreter;
* `Registry.add`: a further language, which takes over its name, extensions and interpreters;
* `Registry.ofFileName?`: the language of a file by the end of its name, in any letter case;
* `Registry.ofFirstLine?`: the language of a script by the program its first line names.
-/

namespace ShellSyntax

/-! ### Names of files -/

namespace FileName

/-- The last part of a path, unless that leads to the folder itself or the one above. -/
def base? (path : Text) : Option Text :=
  let parts := path.splitOn '/'
  match (parts.reverse.dropWhile fun p => p = [] || p = ['.']).head? with
  | some name => if name = ['.', '.'] then none else some name
  | none => none

/-- What follows the last full stop in a path's last part. A full stop at the very start of that
part does not count. -/
def extension? (path : Text) : Option Text :=
  (base? path).bind fun name =>
    let ending := (name.reverse.takeWhile (· ≠ '.')).reverse
    let stem := name.take (name.length - ending.length - 1)
    if ending.length = name.length ∨ stem = [] then none else some ending

end FileName

/-! ### First lines -/

/-- The program that a script's first line asks for: the last part of the path behind `#!`, or, if
that is `env`, the first word behind it that is no option. -/
def interpreter? (firstLine : Text) : Option Text :=
  (Text.afterMark? ['#', '!'] firstLine).bind fun command =>
    match command.words with
    | [] => none
    | path :: arguments =>
      let program := (path.reverse.takeWhile (· ≠ '/')).reverse
      if program = "env".toList then arguments.find? fun w => w.head? ≠ some '-' else some program

/-! ### Registries -/

/-- The languages that are known. -/
structure Registry where
  languages : Std.TreeMap String Language
  /-- The name of the language of each extension, in lowercase. -/
  extensions : Std.TreeMap Text String
  interpreters : Std.TreeMap Text String

namespace Registry

/-- The registry of no language. -/
def empty : Registry := ⟨{}, {}, {}⟩

/-- The registry with one more language. -/
def add (r : Registry) (l : Language) : Registry where
  languages := r.languages.insert l.name l
  extensions := l.extensions.foldl (fun m e => m.insert e.lowercase l.name) r.extensions
  interpreters := l.interpreters.foldl (fun m i => m.insert i l.name) r.interpreters

/-- The language of a name. -/
def get? (r : Registry) (name : String) : Option Language := r.languages[name]?

theorem get?_add (r : Registry) (l : Language) (name : String) :
    (r.add l).get? name = if l.name = name then some l else r.get? name := by
  simp [get?, add, Std.TreeMap.getElem?_insert]

/-- The names of all languages, in order. -/
def names (r : Registry) : List String := r.languages.keys

/-- The name of the language of a file. -/
def ofFileName? (r : Registry) (path : Text) : Option String :=
  (FileName.extension? path).bind fun e => r.extensions[e.lowercase]?

/-- The name of the language of a script with the given first line. -/
def ofFirstLine? (r : Registry) (line : Text) : Option String :=
  (interpreter? line).bind fun program => r.interpreters[program]?

end Registry

end ShellSyntax

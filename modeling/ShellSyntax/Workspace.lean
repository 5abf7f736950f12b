import ShellSyntax.LineCache
import ShellSyntax.Registry
import ShellSyntax.Settings

/-!
Highlighting the documents that a host has open.

* `Workspace`: the known languages, the caches of the documents, and the switch;
* `Workspace.highlight`: the tokens of all lines of a document, by way of its cache;
* `Workspace.cache`, `Workspace.setCache`: a document's cache. One that is not there is the same as
  an empty one.
-/

namespace ShellSyntax

/-- What a host needs for highlighting. Documents are numbered by the host. -/
structure Workspace where
  registry : Registry
  caches : Std.TreeMap Nat LineCache
  enabled : Bool

namespace Workspace

/-- A workspace that knows the shell language. -/
def start : Workspace := ⟨Registry.empty.add shell, {}, true⟩

/-- A workspace that knows the shell language with the user's words. -/
def ofSettings (s : Settings) : Workspace := ⟨Registry.empty.add s.language, {}, s.enabled⟩

/-- The workspace with one more language. -/
def addLanguage (w : Workspace) (l : Language) : Workspace :=
  { w with registry := w.registry.add l }

/-- The workspace with highlighting switched on if it was off, and off if it was on. -/
def toggle (w : Workspace) : Workspace := { w with enabled := !w.enabled }

/-- The cache of a document. -/
def cache (w : Workspace) (doc : Nat) : LineCache := w.caches.getD doc .empty

/-- The workspace with another cache for a document. -/
def setCache (w : Workspace) (doc : Nat) (c : LineCache) : Workspace :=
  { w with caches := w.caches.insert doc c }

theorem cache_setCache (w : Workspace) (doc : Nat) (c : LineCache) (other : Nat) :
    (w.setCache doc c).cache other = if doc = other then c else w.cache other := by
  simp [cache, setCache, Std.TreeMap.getD_insert]

/-- The workspace after a document was closed. -/
def removeCache (w : Workspace) (doc : Nat) : Workspace :=
  { w with caches := w.caches.erase doc }

theorem cache_removeCache (w : Workspace) (doc other : Nat) :
    (w.removeCache doc).cache other = if doc = other then .empty else w.cache other := by
  simp [cache, removeCache, Std.TreeMap.getD_erase]

/-- The workspace after a line of a document was edited. -/
def invalidateFrom (w : Workspace) (doc line : Nat) : Workspace :=
  { w with caches := w.caches.modify doc (·.invalidateFrom line) }

/-- Finds out the language of a document from its file name, or else from its first line. -/
def setLanguage (w : Workspace) (doc : Nat) (fileName firstLine : Option Text) : Workspace :=
  let language := (fileName.bind w.registry.ofFileName?).orElse fun _ =>
    firstLine.bind w.registry.ofFirstLine?
  w.setCache doc ((w.cache doc).setLanguage language)

/-- The language of a document. -/
def language? (w : Workspace) (doc : Nat) : Option Language :=
  (w.cache doc).language.bind w.registry.get?

/-- The tokens of all lines of a document, and the workspace with its cache brought up to date.
While highlighting is off, and for a document of no known language, no line has tokens. -/
def highlight (w : Workspace) (doc : Nat) (lines : List Text) : List (List Token) × Workspace :=
  match if w.enabled then w.language? doc else none with
  | some l =>
    let c := (w.cache doc).refresh l lines
    (c.tokens, w.setCache doc c)
  | none => (lines.map fun _ => [], w)

end Workspace

end ShellSyntax

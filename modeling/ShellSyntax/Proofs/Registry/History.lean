import Mathlib.Data.List.Induction
import Mathlib.Tactic.Common
import ShellSyntax.Registry

/-!
What a registry answers after languages have been added to it.

* `Language.hasExtension`, `Language.isRunBy`: whether a language lists a file extension, in any
  letter case, or an interpreter;
* `Registry.extensions_add`, `Registry.interpreters_add`: a language that is added takes over what
  it lists, and nothing else;
* `Registry.addAll`, `Registry.latest_addAll`: whatever is taken over in this way belongs, after any
  number of languages, to the last of them that lists it;
* `Registry.mem_names_iff`: the names of the languages that are known.
-/

namespace ShellSyntax

/-- Whether files with an extension are in the language. -/
def Language.hasExtension (l : Language) (extension : Text) : Bool :=
  l.extensions.any fun e => e.lowercase = extension.lowercase

/-- Whether a program runs files in the language. -/
def Language.isRunBy (l : Language) (program : Text) : Bool := l.interpreters.any (· = program)

namespace Registry

/-! ### One more language -/

/-- After some texts were inserted with a name, by their keys, the name stands at these keys. -/
lemma getElem?_insertEach (key : Text → Text) (texts : List Text) (name : String)
    (m : Std.TreeMap Text String) (k : Text) :
    (texts.foldl (fun m t => m.insert (key t) name) m)[k]?
      = if texts.any (key · = k) then some name else m[k]? := by
  induction texts generalizing m with
  | nil => rfl
  | cons t texts ih =>
      rw [List.foldl_cons, ih, Std.TreeMap.getElem?_insert, List.any_cons]
      by_cases hlater : texts.any (key · = k) = true
      · simp [hlater]
      · by_cases hhere : key t = k <;> simp [hlater, hhere]

lemma extensions_add (r : Registry) (l : Language) (extension : Text) :
    (r.add l).extensions[extension.lowercase]?
      = if l.hasExtension extension then some l.name else r.extensions[extension.lowercase]? :=
  getElem?_insertEach Text.lowercase l.extensions l.name r.extensions extension.lowercase

lemma interpreters_add (r : Registry) (l : Language) (program : Text) :
    (r.add l).interpreters[program]?
      = if l.isRunBy program then some l.name else r.interpreters[program]? :=
  getElem?_insertEach id l.interpreters l.name r.interpreters program

/-! ### Any number of languages -/

/-- The registry with more languages, added in order. -/
def addAll (r : Registry) (ls : List Language) : Registry := ls.foldl add r

/-- An answer that each language that is added takes over, if it claims it, is in the end that of
the last language that claims it. -/
lemma latest_addAll {α : Type} (look : Registry → Option α) (claims : Language → Bool)
    (answer : Language → α)
    (hadd : ∀ r l, look (r.add l) = if claims l then some (answer l) else look r)
    (r : Registry) (ls : List Language) :
    look (r.addAll ls) = ((ls.reverse.find? claims).map answer).or (look r) := by
  induction ls using List.reverseRecOn with
  | nil => rfl
  | append_singleton ls l ih =>
      rw [addAll, List.foldl_append, List.foldl_cons, List.foldl_nil, hadd, List.reverse_concat,
        List.find?_cons]
      split_ifs with hclaims
      · rw [hclaims]
        rfl
      · rw [Bool.eq_false_iff.mpr hclaims]
        exact ih

lemma get?_addAll (r : Registry) (ls : List Language) (name : String) :
    (r.addAll ls).get? name = (ls.reverse.find? (·.name = name)).or (r.get? name) := by
  have h := latest_addAll (·.get? name) (·.name = name) id
    (fun r l => by simpa using get?_add r l name) r ls
  rwa [Option.map_id] at h

lemma mem_names_iff {r : Registry} {name : String} : name ∈ r.names ↔ (r.get? name).isSome := by
  rw [names, get?, Std.TreeMap.mem_keys, Std.TreeMap.isSome_getElem?_iff_mem]

end Registry

end ShellSyntax

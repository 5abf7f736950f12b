import Mathlib.Data.List.Basic
import Mathlib.Tactic.Common
import ShellSyntax.Proofs.LineCache.Refresh
import ShellSyntax.Workspace

/-!
What a host can do with a workspace, one call after the other.

* `Workspace.Call`, `Workspace.call`, `Workspace.run`: the calls, a workspace after one, and after
  several;
* `Workspace.cache_call_of_ne`: what a call does to the cache of a document that it is not about:
  nothing;
* `Workspace.Effect`, `Workspace.effect`: what a call does to what is kept of a document.
  `Workspace.call_effect` says it of the cache and of the languages;
* `Workspace.looksAt?`: the language in which a call for highlighting would bring a document's cache
  up to date.
-/

namespace ShellSyntax

namespace Workspace

/-- A call of the host. -/
inductive Call where
  /-- The language of a document is found out from its file name or its first line. -/
  | setLanguage (doc : ℕ) (fileName firstLine : Option Text)
  /-- The language of a document's cache is set. -/
  | setCacheLanguage (doc : ℕ) (language : Option String)
  /-- A line was edited, which concerns a document whose cache is there. -/
  | invalidateFrom (doc line : ℕ)
  /-- A line was edited, as the document's cache is told. -/
  | invalidateCacheFrom (doc line : ℕ)
  | invalidateAll (doc : ℕ)
  /-- A new cache takes the place of a document's cache. -/
  | replaceCache (doc : ℕ)
  | removeCache (doc : ℕ)
  | toggle
  | addLanguage (l : Language)
  | highlight (doc : ℕ) (lines : List Text)

/-- The workspace after a call. -/
def call (w : Workspace) : Call → Workspace
  | .setLanguage doc fileName firstLine => w.setLanguage doc fileName firstLine
  | .setCacheLanguage doc language => w.setCache doc ((w.cache doc).setLanguage language)
  | .invalidateFrom doc line => w.invalidateFrom doc line
  | .invalidateCacheFrom doc line => w.setCache doc ((w.cache doc).invalidateFrom line)
  | .invalidateAll doc => w.setCache doc (w.cache doc).invalidateAll
  | .replaceCache doc => w.setCache doc .empty
  | .removeCache doc => w.removeCache doc
  | .toggle => w.toggle
  | .addLanguage l => w.addLanguage l
  | .highlight doc lines => (w.highlight doc lines).2

/-- The workspace after calls. -/
def run (w : Workspace) (calls : List Call) : Workspace := calls.foldl call w

@[simp] lemma run_nil (w : Workspace) : w.run [] = w := rfl

@[simp] lemma run_cons (w : Workspace) (c : Call) (calls : List Call) :
    w.run (c :: calls) = (w.call c).run calls := rfl

lemma run_append (w : Workspace) (calls more : List Call) :
    w.run (calls ++ more) = (w.run calls).run more := List.foldl_append

/-- The language in which a document is highlighted, unless highlighting is off or the document is
of no known language. Only then its cache is brought up to date. -/
def looksAt? (w : Workspace) (doc : ℕ) : Option Language :=
  if w.enabled then w.language? doc else none

lemma highlight_of_some {w : Workspace} {doc : ℕ} {l : Language} (h : w.looksAt? doc = some l)
    (lines : List Text) :
    w.highlight doc lines
      = (((w.cache doc).refresh l lines).tokens,
          w.setCache doc ((w.cache doc).refresh l lines)) := by
  rw [highlight, ← looksAt?, h]

lemma highlight_of_none {w : Workspace} {doc : ℕ} (h : w.looksAt? doc = none)
    (lines : List Text) : w.highlight doc lines = (lines.map fun _ => [], w) := by
  rw [highlight, ← looksAt?, h]

/-! ### Caches -/

lemma cache_invalidateFrom (w : Workspace) (doc line other : ℕ) :
    (w.invalidateFrom doc line).cache other
      = if doc = other then (w.cache other).invalidateFrom line else w.cache other := by
  simp only [cache, invalidateFrom, Std.TreeMap.getD_modify, Nat.compare_eq_eq]
  split
  · rename_i h
    subst h
    rw [Std.TreeMap.getD_eq_getD_getElem?]
    cases w.caches[doc]? with
    | none => simp [LineCache.empty, LineCache.invalidateFrom]
    | some c => rfl
  · rfl

/-- The document that a call is about. -/
def Call.doc? : Call → Option ℕ
  | .setLanguage doc _ _ | .setCacheLanguage doc _ | .invalidateFrom doc _
  | .invalidateCacheFrom doc _ | .invalidateAll doc | .replaceCache doc | .removeCache doc
  | .highlight doc _ => some doc
  | .toggle | .addLanguage _ => none

/-- Calls about other documents leave the cache of a document alone. -/
lemma cache_call_of_ne (w : Workspace) {c : Call} {doc : ℕ} (h : c.doc? ≠ some doc) :
    (w.call c).cache doc = w.cache doc := by
  cases c with
  | highlight other lines =>
      have hne : other ≠ doc := fun he => h (by rw [Call.doc?, he])
      rw [call]
      cases hl : w.looksAt? other with
      | none => rw [highlight_of_none hl]
      | some l => rw [highlight_of_some hl, cache_setCache, if_neg hne]
  | toggle => rfl
  | addLanguage l => rfl
  | _ =>
      have hne := fun he => h (congrArg some he)
      simp only [call, setLanguage, cache_setCache, cache_removeCache, cache_invalidateFrom]
      rw [if_neg hne]

/-- Only a call for a new language changes what languages are known. -/
lemma registry_call (w : Workspace) {c : Call} (h : ∀ l, c ≠ .addLanguage l) :
    (w.call c).registry = w.registry := by
  cases c with
  | addLanguage l => exact absurd rfl (h l)
  | highlight doc lines =>
      rw [call]
      cases hl : w.looksAt? doc with
      | none => rw [highlight_of_none hl]
      | some l => rw [highlight_of_some hl]; rfl
  | _ => rfl

/-! ### What a call does to a document -/

/-- What a call does to what is kept of a document. -/
inductive Effect where
  | none
  /-- The cache is brought up to date with the lines. -/
  | looked (lines : List Text)
  | edited (line : ℕ)
  | cleared
  /-- A language is added, in which the document may be. -/
  | added (l : Language)

/-- What a call to a workspace does to what is kept of a document. -/
def effect (w : Workspace) (doc : ℕ) : Call → Effect
  | .highlight d lines => if d = doc ∧ (w.looksAt? doc).isSome then .looked lines else .none
  | .invalidateFrom d line | .invalidateCacheFrom d line => if d = doc then .edited line else .none
  | .setLanguage d _ _ | .setCacheLanguage d _ | .invalidateAll d | .replaceCache d
  | .removeCache d => if d = doc then .cleared else .none
  | .addLanguage l => .added l
  | .toggle => .none

lemma effect_of_ne (w : Workspace) {c : Call} {doc : ℕ} (h : c.doc? ≠ some doc)
    (hadd : ∀ l, c ≠ .addLanguage l) : w.effect doc c = .none := by
  have hne : ∀ d, c.doc? = some d → d ≠ doc := fun d hd he => h (he ▸ hd)
  cases c with
  | toggle => rfl
  | addLanguage l => exact absurd rfl (hadd l)
  | _ => simp [effect, hne _ rfl]

/-- The cache of a document and the languages after a call. -/
lemma call_effect (w : Workspace) (doc : ℕ) (c : Call) :
    match w.effect doc c with
    | .none => (w.call c).registry = w.registry ∧ (w.call c).cache doc = w.cache doc
    | .looked lines => c = .highlight doc lines ∧ (w.looksAt? doc).isSome
    | .edited line => (w.call c).registry = w.registry
        ∧ (w.call c).cache doc = (w.cache doc).invalidateFrom line
    | .cleared => (w.call c).registry = w.registry
        ∧ (w.call c).cache doc = ((w.call c).cache doc).invalidateAll
    | .added l => c = .addLanguage l := by
  by_cases hadd : ∃ l, c = .addLanguage l
  · obtain ⟨l, rfl⟩ := hadd
    rfl
  · have hadd : ∀ l, c ≠ .addLanguage l := fun l hl => hadd ⟨l, hl⟩
    by_cases hdoc : c.doc? = some doc
    · -- a call for this document: what it does is read off call by call
      cases c with
      | toggle => cases hdoc
      | addLanguage l => exact absurd rfl (hadd l)
      | highlight d lines =>
          obtain rfl : d = doc := Option.some.inj hdoc
          cases hl : w.looksAt? d with
          | none =>
              have heffect : w.effect d (.highlight d lines) = .none :=
                if_neg fun h => by simp [hl] at h
              rw [heffect, call, highlight_of_none hl]
              exact ⟨rfl, rfl⟩
          | some l =>
              have heffect : w.effect d (.highlight d lines) = .looked lines :=
                if_pos ⟨rfl, by rw [hl]; rfl⟩
              rw [heffect]
              exact ⟨rfl, rfl⟩
      | invalidateFrom d line =>
          obtain rfl : d = doc := Option.some.inj hdoc
          rw [effect, if_pos rfl]
          exact ⟨rfl, by rw [call, cache_invalidateFrom, if_pos rfl]⟩
      | invalidateCacheFrom d line =>
          obtain rfl : d = doc := Option.some.inj hdoc
          rw [effect, if_pos rfl]
          exact ⟨rfl, by rw [call, cache_setCache, if_pos rfl]⟩
      | removeCache d =>
          obtain rfl : d = doc := Option.some.inj hdoc
          rw [effect, if_pos rfl]
          refine ⟨rfl, ?_⟩
          rw [call, cache_removeCache, if_pos rfl]
          rfl
      | _ d =>
          -- the other calls clear the cache, whatever else they set
          obtain rfl : d = doc := Option.some.inj hdoc
          rw [effect, if_pos rfl]
          refine ⟨rfl, ?_⟩
          simp only [call, setLanguage, cache_setCache, if_pos]
          rfl
    · -- a call for another document, or for none
      rw [w.effect_of_ne hdoc hadd]
      exact ⟨registry_call w hadd, cache_call_of_ne w hdoc⟩

/-! ### Languages of documents -/

lemma looksAt?_congr {w w' : Workspace} {doc : ℕ} (henabled : w'.enabled = w.enabled)
    (hregistry : w'.registry = w.registry)
    (hlanguage : (w'.cache doc).language = (w.cache doc).language) :
    w'.looksAt? doc = w.looksAt? doc := by
  rw [looksAt?, looksAt?, language?, language?, henabled, hregistry, hlanguage]

/-- A look at a document leaves the language of each document as it is. -/
lemma looksAt?_highlight (w : Workspace) (doc : ℕ) (lines : List Text) (other : ℕ) :
    (w.highlight doc lines).2.looksAt? other = w.looksAt? other := by
  cases hl : w.looksAt? doc with
  | none => rw [highlight_of_none hl]
  | some l =>
      rw [highlight_of_some hl]
      refine looksAt?_congr rfl rfl ?_
      rw [cache_setCache]
      split
      · rename_i h
        subst h
        exact LineCache.language_refresh l _ lines
      · rfl

/-- So does the report of an edit. -/
lemma looksAt?_invalidateFrom (w : Workspace) (doc line other : ℕ) :
    (w.invalidateFrom doc line).looksAt? other = w.looksAt? other := by
  refine looksAt?_congr rfl rfl ?_
  rw [cache_invalidateFrom]
  split <;> rfl

end Workspace

end ShellSyntax

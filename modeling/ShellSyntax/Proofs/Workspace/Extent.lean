import Mathlib.Data.List.Basic
import Mathlib.Tactic.Common
import ShellSyntax.Proofs.LineCache.Extent
import ShellSyntax.Proofs.Workspace.Incremental

/-!
What a look at a document recomputes, whatever the host has done before.

* `Workspace.restFrom`, `Workspace.rest`: the cache of a document when it was last brought up to
  date or cleared;
* `Workspace.Rests`: the invariant. A document's cache is that one, less the tokens of the lines
  that were reported since; and in that one all lines have tokens;
* `Workspace.rests_call`, `Workspace.rests_run`: a call keeps it, and so does any run;
* `Workspace.highlight_recomputed`: so a look recomputes the lines from the first reported one up to
  the first that ends as before with no reported one behind it, and keeps all others.
-/

namespace ShellSyntax

namespace Workspace

open LineCache (firstEdited Recomputed)

/-! ### Caches at rest -/

/-- The cache of a document when it was last brought up to date or cleared, if `c` is what it was
before the calls. -/
def restFrom (doc : ℕ) : Workspace → LineCache → List Call → LineCache
  | _, c, [] => c
  | w, c, call :: calls =>
    let next := match w.effect doc call with
      | .looked _ | .cleared => (w.call call).cache doc
      | .none | .edited _ | .added _ => c
    restFrom doc (w.call call) next calls

/-- The cache of a document when it was last brought up to date or cleared by calls to a workspace
that did not know it. -/
def rest (w : Workspace) (doc : ℕ) (calls : List Call) : LineCache := restFrom doc w .empty calls

/-- A document's cache is the one at rest, less the tokens of the lines reported since. In the one
at rest all lines have tokens. -/
structure Rests (w : Workspace) (doc : ℕ) (c : LineCache) (r : Report) : Prop where
  complete : c.Complete c.lines.length
  cache_eq : w.cache doc = c.invalidateEach r.edited

variable {w : Workspace} {doc : ℕ} {c : LineCache} {r : Report}

lemma Rests.wellFormed (h : w.Rests doc c r) : (w.cache doc).WellFormed := by
  rw [h.cache_eq]
  induction r.edited with
  | nil => exact h.complete.wellFormed
  | cons d ds ih => exact ih.invalidateFrom d

/-- A cache that has just been cleared is at rest. -/
lemma rests_of_cleared (h : w.cache doc = (w.cache doc).invalidateAll) :
    w.Rests doc (w.cache doc) .none := by
  refine ⟨?_, rfl⟩
  rw [h]
  exact ⟨rfl, rfl, fun o ho => absurd ho List.not_mem_nil⟩

/-- So is a cache that has just been brought up to date. -/
lemma Rests.looked (h : w.Rests doc c r) {l : Language} (hl : w.looksAt? doc = some l)
    (lines : List Text) :
    (w.highlight doc lines).2.Rests doc ((w.highlight doc lines).2.cache doc) ⟨lines, []⟩ := by
  have hcomplete := h.wellFormed.refresh l lines
  rw [highlight_of_some hl, cache_setCache, if_pos rfl]
  refine ⟨?_, by rw [cache_setCache, if_pos rfl]; rfl⟩
  rwa [hcomplete.length_eq]

/-- A call leaves the cache of a document at rest, less the lines reported since. -/
lemma rests_call (h : w.Rests doc c r) (call : Call) :
    (w.call call).Rests doc
      (match w.effect doc call with
        | .looked _ | .cleared => (w.call call).cache doc
        | .none | .edited _ | .added _ => c)
      (r.after w doc call) := by
  have hcall := w.call_effect doc call
  rw [r.after_eq]
  cases he : w.effect doc call with
  | none =>
      rw [he] at hcall
      exact ⟨h.complete, hcall.2.trans h.cache_eq⟩
  | looked lines =>
      rw [he] at hcall
      obtain ⟨rfl, hl⟩ := hcall
      obtain ⟨l, hl⟩ := Option.isSome_iff_exists.mp hl
      exact h.looked hl lines
  | edited line =>
      rw [he] at hcall
      refine ⟨h.complete, ?_⟩
      rw [hcall.2, h.cache_eq]
      rfl
  | cleared =>
      rw [he] at hcall
      exact rests_of_cleared hcall.2
  | added l =>
      rw [he] at hcall
      subst hcall
      exact ⟨h.complete, h.cache_eq⟩

/-- So do calls one after the other. -/
lemma rests_runFrom (h : w.Rests doc c r) (calls : List Call) :
    (w.run calls).Rests doc (restFrom doc w c calls) (reportFrom doc w r calls) := by
  induction calls generalizing w c r with
  | nil => exact h
  | cons call calls ih => exact ih (rests_call h call)

lemma rests_run (hw : w.cache doc = .empty) (calls : List Call) :
    (w.run calls).Rests doc (w.rest doc calls) (w.report doc calls) := by
  refine rests_runFrom ?_ calls
  have hempty : w.Rests doc (w.cache doc) .none := rests_of_cleared (by rw [hw]; rfl)
  rwa [hw] at hempty

/-! ### Looks -/

/-- **A look at a document recomputes the lines from the first reported one on**, each from the
state in which the one above it ends, up to the first that ends as it ended before, with no reported
line behind it, and keeps all others, whatever the lines have become. If the number of lines has
changed, all lines from the first reported one on are recomputed. So, with nothing reported and as
many lines as before, the answer is what it was; and it does not depend on the order of the reports,
nor on how often a line was reported. -/
theorem highlight_recomputed (registry : Registry) (enabled : Bool) (calls : List Call) (doc : ℕ) :
    let start : Workspace := ⟨registry, {}, enabled⟩
    let w := start.run calls
    let c := start.rest doc calls
    let ds := (start.report doc calls).edited
    (∀ o ∈ c.lines, o.tokens.isSome)
      ∧ w.cache doc = c.invalidateEach ds
      ∧ (∀ l lines, Recomputed l c.lines ds lines ((w.cache doc).refresh l lines).lines
        ∧ (∀ i, ((w.cache doc).refresh l lines).lineState? i
          = ((w.cache doc).refresh l lines).lines[i]?.map (·.endState))
        ∧ (lines.length = c.lines.length → ds = [] →
          ((w.cache doc).refresh l lines).tokens = c.tokens)
        ∧ ∀ ds', (∀ d, d ∈ ds' ↔ d ∈ ds) →
          (c.invalidateEach ds').refresh l lines = (w.cache doc).refresh l lines)
      ∧ ∀ l lines, w.looksAt? doc = some l →
        (w.highlight doc lines).1 = ((w.cache doc).refresh l lines).tokens
          ∧ (w.highlight doc lines).2.cache doc = (w.cache doc).refresh l lines := by
  intro start w c ds
  have hempty : start.cache doc = .empty := Std.TreeMap.getD_emptyc
  have hrests : w.Rests doc c (start.report doc calls) := rests_run hempty calls
  have hcache : w.cache doc = c.invalidateEach ds := hrests.cache_eq
  have hrecomputed (l : Language) (lines : List Text) :
      Recomputed l c.lines ds lines ((w.cache doc).refresh l lines).lines := by
    rw [hcache]
    exact LineCache.recomputed_refresh hrests.complete l ds lines
  refine ⟨hrests.complete.known, hcache, fun l lines => ⟨hrecomputed l lines, fun i => ?_,
    fun hlen hnone => ?_, fun ds' hds' => ?_⟩, fun l lines hl => ?_⟩
  · -- after a look all lines are settled, so their end states may be read
    have hcomplete := hrests.wellFormed.refresh l lines
    rw [LineCache.lineState?, hcomplete.settled_eq]
    split
    · rfl
    · rename_i hi
      rw [List.getElem?_eq_none (by rw [hcomplete.length_eq]; omega)]
      rfl
  · -- with nothing reported, no line is recomputed
    have hfirst : firstEdited c.lines.length ds = lines.length := by
      rw [hnone, hlen]
      rfl
    rw [LineCache.tokens, (hrecomputed l lines).kept hlen hfirst]
    rfl
  · rw [hcache, c.invalidateEach_congr hds']
  · rw [highlight_of_some hl, cache_setCache, if_pos rfl]
    exact ⟨rfl, rfl⟩

/-- Of two lines that have changed only the first was reported, which ends as it ended before. So
the look ends behind it, and of the second line finds the tokens it had. -/
theorem highlight_halfReported :
    let w : Workspace := ⟨Registry.empty.add shell, {}, true⟩
    let calls : List Call := [.setCacheLanguage 0 (some "Shell"),
      .highlight 0 [['x'], ['i', 'f']], .invalidateFrom 0 0]
    let lines : List Text := [['1'], ['n', 'o']]
    (w.run calls).looksAt? 0 = some shell
      ∧ ((w.run calls).highlight 0 lines).1
        = [[⟨⟨0, 1⟩, .number⟩], [⟨⟨0, 2⟩, .keyword⟩]] := by
  intro w calls lines
  have hshell : (w.call (.setCacheLanguage 0 (some "Shell"))).looksAt? 0 = some shell := by
    simp only [call, looksAt?, language?, cache_setCache, if_pos]
    exact Registry.get?_add Registry.empty shell "Shell"
  have hlooks : (w.run calls).looksAt? 0 = some shell := by
    show ((((w.call (.setCacheLanguage 0 (some "Shell"))).highlight 0 _).2.invalidateFrom
      0 0).looksAt? 0) = _
    rw [looksAt?_invalidateFrom, looksAt?_highlight, hshell]
  obtain ⟨-, -, hrecomputed, hanswer⟩ :=
    highlight_recomputed (Registry.empty.add shell) true calls 0
  have hrest : (w.rest 0 calls).lines
      = [⟨.root, some [⟨⟨0, 1⟩, .plain⟩]⟩, ⟨.root, some [⟨⟨0, 2⟩, .keyword⟩]⟩] := by
    decide +kernel
  have hreport : (w.report 0 calls).edited = [0] := by
    decide +kernel
  obtain ⟨i, hlast, hlines⟩ := (hrecomputed shell lines).1.edited
    (by rw [hrest]; rfl) (by rw [hrest, hreport]; decide)
  rw [hrest, hreport] at hlast hlines
  -- the look may stop behind the first line
  obtain rfl : i = 0 := by
    by_contra hi
    exact hlast.goesOn 0 (Nat.le_refl 0) (Nat.pos_of_ne_zero hi) ⟨by decide +kernel, by decide⟩
  refine ⟨hlooks, ?_⟩
  rw [(hanswer shell lines hlooks).1, LineCache.tokens, hlines]
  decide +kernel

end Workspace

end ShellSyntax

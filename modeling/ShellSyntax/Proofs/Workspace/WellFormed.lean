import Mathlib.Data.List.Basic
import Mathlib.Tactic.Common
import ShellSyntax.Proofs.LineCache.Indexed
import ShellSyntax.Proofs.Workspace.Calls

/-!
The caches of a workspace are well formed, whatever the host does.

* `Workspace.indexedAfter?`, `Workspace.indexedFrom?`: the two lists that are kept of a document,
  after a call and after several. There is no result where an index lies behind the end of a list;
* `Workspace.indexedAfter?_call`, `Workspace.indexedFrom?_run`: a call, and a run of calls, does to
  the two lists what it does to the cache, and keeps that well formed;
* `Workspace.wellFormed_run`: after any run there are the two lists, well formed, and a look at the
  document brings them up to date, with tokens for each line.
-/

namespace ShellSyntax

namespace Workspace

/-- The two lists of a document after a call to a workspace. -/
def indexedAfter? (w : Workspace) (doc : ℕ) (c : IndexedCache) : Call → Option IndexedCache
  | .highlight d lines =>
    match if d = doc then w.looksAt? doc else none with
    | some l => (c.refresh? l lines).map (·.2)
    | none => some c
  | .invalidateFrom d line | .invalidateCacheFrom d line =>
    some (if d = doc then c.invalidateFrom line else c)
  | .setLanguage d _ _ | .setCacheLanguage d _ | .invalidateAll d | .replaceCache d
  | .removeCache d => some (if d = doc then .empty else c)
  | .toggle | .addLanguage _ => some c

/-- The two lists of a document after calls to a workspace. -/
def indexedFrom? (doc : ℕ) : Workspace → IndexedCache → List Call → Option IndexedCache
  | _, c, [] => some c
  | w, c, call :: calls =>
    (w.indexedAfter? doc c call).bind fun c => indexedFrom? doc (w.call call) c calls

lemma indexedAfter?_of_ne (w : Workspace) {doc : ℕ} (i : IndexedCache) {c : Call}
    (h : c.doc? ≠ some doc) : w.indexedAfter? doc i c = some i := by
  have hne : ∀ d, c.doc? = some d → d ≠ doc := fun d hd he => h (he ▸ hd)
  cases c with
  | toggle => rfl
  | addLanguage l => rfl
  | _ => simp [indexedAfter?, hne _ rfl]

/-- A call does to the two lists of a document what it does to the cache, and keeps that well
formed. -/
lemma indexedAfter?_call {w : Workspace} {doc : ℕ} (h : (w.cache doc).WellFormed) (c : Call) :
    w.indexedAfter? doc (w.cache doc).indexed c = some ((w.call c).cache doc).indexed
      ∧ ((w.call c).cache doc).WellFormed := by
  by_cases hdoc : c.doc? = some doc
  · cases c with
    | toggle => cases hdoc
    | addLanguage l => cases hdoc
    | highlight d lines =>
        obtain rfl : d = doc := Option.some.inj hdoc
        rw [indexedAfter?, if_pos rfl, call]
        cases hl : w.looksAt? d with
        | none =>
            rw [highlight_of_none hl]
            exact ⟨rfl, h⟩
        | some l =>
            rw [highlight_of_some hl, cache_setCache, if_pos rfl]
            exact ⟨congrArg (Option.map (·.2)) (h.refresh?_indexed l lines),
              (h.refresh l lines).wellFormed⟩
    | invalidateFrom d line =>
        obtain rfl : d = doc := Option.some.inj hdoc
        rw [indexedAfter?, if_pos rfl, call, cache_invalidateFrom, if_pos rfl,
          LineCache.indexed_invalidateFrom]
        exact ⟨rfl, h.invalidateFrom line⟩
    | invalidateCacheFrom d line =>
        obtain rfl : d = doc := Option.some.inj hdoc
        rw [indexedAfter?, if_pos rfl, call, cache_setCache, if_pos rfl,
          LineCache.indexed_invalidateFrom]
        exact ⟨rfl, h.invalidateFrom line⟩
    | removeCache d =>
        obtain rfl : d = doc := Option.some.inj hdoc
        rw [indexedAfter?, if_pos rfl, call, cache_removeCache, if_pos rfl]
        exact ⟨rfl, LineCache.wellFormed_of_settled rfl⟩
    | _ d =>
        -- the other calls leave no line settled
        obtain rfl : d = doc := Option.some.inj hdoc
        simp only [indexedAfter?, call, setLanguage, cache_setCache, if_pos]
        exact ⟨rfl, LineCache.wellFormed_of_settled rfl⟩
  · rw [cache_call_of_ne w hdoc, w.indexedAfter?_of_ne _ hdoc]
    exact ⟨rfl, h⟩

/-- Calls do to the two lists of a document what they do to the cache, and keep both well formed. -/
lemma indexedFrom?_run {w : Workspace} {doc : ℕ} (h : (w.cache doc).WellFormed)
    (calls : List Call) :
    indexedFrom? doc w (w.cache doc).indexed calls = some ((w.run calls).cache doc).indexed
      ∧ ((w.run calls).cache doc).WellFormed := by
  induction calls generalizing w with
  | nil => exact ⟨rfl, h⟩
  | cons c calls ih =>
      obtain ⟨hstep, hcall⟩ := indexedAfter?_call h c
      rw [indexedFrom?, hstep, Option.bind_some, run_cons]
      exact ih hcall

/-- **The caches of a workspace are always well formed.** Whatever is called, the two lists that are
kept of a document can be read and written where that is necessary, have the same length, and hold
the tokens of all settled lines. A look at the document has a list of tokens for each line. If the
document is of a known language, the look succeeds index by index, and then the two lists hold the
tokens of all lines. -/
theorem wellFormed_run (r : Registry) (enabled : Bool) (calls : List Call) (doc : ℕ) :
    let w : Workspace := ⟨r, {}, enabled⟩
    ∃ c, indexedFrom? doc w .empty calls = some c
      ∧ c = ((w.run calls).cache doc).indexed
      ∧ c.WellFormed
      ∧ ∀ lines,
        ((w.run calls).highlight doc lines).1.length = lines.length
          ∧ ∀ l, (w.run calls).looksAt? doc = some l →
            ∃ c', c.refresh? l lines = some (((w.run calls).highlight doc lines).1, c')
              ∧ c' = (((w.run calls).highlight doc lines).2.cache doc).indexed
              ∧ c'.Holds ((w.run calls).highlight doc lines).1 := by
  intro w
  have hw : (w.cache doc).WellFormed := by
    have hempty : w.cache doc = .empty := Std.TreeMap.getD_emptyc
    rw [hempty]
    exact LineCache.wellFormed_of_settled rfl
  have hindexed : (w.cache doc).indexed = .empty := rfl
  obtain ⟨hrun, hc⟩ := indexedFrom?_run hw calls
  rw [hindexed] at hrun
  refine ⟨_, hrun, rfl, hc.indexed, fun lines => ⟨?_, fun l hl => ?_⟩⟩
  · cases hl : (w.run calls).looksAt? doc with
    | none => rw [highlight_of_none hl, List.length_map]
    | some l => rw [highlight_of_some hl, LineCache.length_tokens, (hc.refresh l lines).length_eq]
  · rw [highlight_of_some hl, cache_setCache, if_pos rfl]
    exact ⟨_, hc.refresh?_indexed l lines, rfl, (hc.refresh l lines).holds⟩

/-- An edit far behind the end of a script, and then a look at more lines than before, do no harm. -/
theorem wellFormed_run_strayEdit :
    let w : Workspace := ⟨Registry.empty.add shell, {}, true⟩
    let calls : List Call := [.setCacheLanguage 0 (some "Shell"), .highlight 0 [['i', 'f']],
      .invalidateFrom 0 7]
    let lines : List Text := [['i', 'f'], ['f', 'i']]
    (w.run calls).looksAt? 0 = some shell
      ∧ ∃ c c', indexedFrom? 0 w .empty calls = some c
        ∧ c.refresh? shell lines = some (((w.run calls).highlight 0 lines).1, c')
        ∧ c'.Holds ((w.run calls).highlight 0 lines).1 := by
  intro w calls lines
  have hshell : (w.call (.setCacheLanguage 0 (some "Shell"))).looksAt? 0 = some shell := by
    simp only [call, looksAt?, language?, cache_setCache, if_pos]
    exact Registry.get?_add Registry.empty shell "Shell"
  have hlooks : (w.run calls).looksAt? 0 = some shell := by
    show ((((w.call (.setCacheLanguage 0 (some "Shell"))).highlight 0 _).2.invalidateFrom
      0 7).looksAt? 0) = _
    rw [looksAt?_invalidateFrom, looksAt?_highlight, hshell]
  obtain ⟨c, hc, -, -, hlook⟩ := wellFormed_run (Registry.empty.add shell) true calls 0
  obtain ⟨c', hc', -, hholds⟩ := (hlook lines).2 shell hlooks
  exact ⟨hlooks, c, c', hc, hc', hholds⟩

end Workspace

end ShellSyntax

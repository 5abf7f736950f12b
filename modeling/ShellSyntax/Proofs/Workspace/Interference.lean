import Mathlib.Data.List.Basic
import Mathlib.Tactic.Common
import ShellSyntax.Proofs.Workspace.Calls

/-!
Documents do not interfere with each other, and looks while highlighting is off leave no trace.

* `Workspace.Request`, `Workspace.log`: what a host asks, and the answers it gets, one after the
  other;
* `Workspace.Agrees`: two workspaces that cannot be told apart by requests about a document.
  `Workspace.Agrees.after`: requests about that document, or about none, keep them so, and find the
  same answers. `Workspace.Agrees.skip`: so do requests that only one of them gets, if they are
  about other documents;
* `Workspace.after_of_isIdle`: a look while highlighting is off changes nothing;
* `Workspace.log_eq_of_deletions`: so the answers about a document stay the same when requests about
  other documents are left out, and when looks while highlighting is off are left out.
-/

namespace ShellSyntax

namespace Workspace

/-! ### Requests and answers -/

/-- What a host asks of a workspace. -/
inductive Request where
  | call (c : Call)
  /-- The state at the end of a line is looked up in the cache of a document. -/
  | lineState (doc line : ℕ)
  /-- The language of a document's cache is looked up. -/
  | cacheLanguage (doc : ℕ)

/-- What a host gets to know. -/
inductive Answer where
  | nothing
  | tokens (lines : List (List Token))
  | lineState (s : Option LineState)
  | language (name : Option String)

/-- The document that a request is about. -/
def Request.doc? : Request → Option ℕ
  | .call c => c.doc?
  | .lineState doc _ | .cacheLanguage doc => some doc

/-- The answer to a request. -/
def answer (w : Workspace) : Request → Answer
  | .call (.highlight doc lines) => .tokens (w.highlight doc lines).1
  | .call _ => .nothing
  | .lineState doc line => .lineState ((w.cache doc).lineState? line)
  | .cacheLanguage doc => .language (w.cache doc).language

/-- The workspace after a request. A cache is made before anything is looked up in it. -/
def after (w : Workspace) : Request → Workspace
  | .call c => w.call c
  | .lineState doc _ | .cacheLanguage doc => w.setCache doc (w.cache doc)

/-- A request with its answer. -/
structure Exchange where
  request : Request
  /-- Whether highlighting was on. -/
  enabled : Bool
  answer : Answer

/-- Requests one after the other, with their answers. -/
def log (w : Workspace) : List Request → List Exchange
  | [] => []
  | r :: requests => ⟨r, w.enabled, w.answer r⟩ :: (w.after r).log requests

namespace Exchange

/-- Whether an answer is about a document. -/
def isAbout (doc : ℕ) (e : Exchange) : Bool := e.request.doc? = some doc

/-- Whether a document was to be highlighted while highlighting was off. -/
def isIdle (e : Exchange) : Bool :=
  match e.request with
  | .call (.highlight _ _) => !e.enabled
  | _ => false

end Exchange

/-! ### Other documents -/

/-- Two workspaces that differ in nothing that matters to a document. -/
structure Agrees (doc : ℕ) (w w' : Workspace) : Prop where
  registry : w.registry = w'.registry
  enabled : w.enabled = w'.enabled
  cache : w.cache doc = w'.cache doc

lemma Agrees.refl (doc : ℕ) (w : Workspace) : Agrees doc w w := ⟨rfl, rfl, rfl⟩

/-- Only the switch changes whether highlighting is on. -/
lemma enabled_call (w : Workspace) {c : Call} (h : c ≠ .toggle) :
    (w.call c).enabled = w.enabled := by
  cases c with
  | toggle => exact absurd rfl h
  | highlight doc lines =>
      rw [call]
      cases hl : w.looksAt? doc with
      | none => rw [highlight_of_none hl]
      | some l => rw [highlight_of_some hl]; rfl
  | _ => rfl

variable {doc : ℕ} {w w' : Workspace}

lemma Agrees.looksAt? (h : Agrees doc w w') : w.looksAt? doc = w'.looksAt? doc :=
  looksAt?_congr h.enabled h.registry (congrArg LineCache.language h.cache)

/-- Agreeing workspaces highlight the document alike. -/
lemma Agrees.highlight (h : Agrees doc w w') (lines : List Text) :
    (w.highlight doc lines).1 = (w'.highlight doc lines).1
      ∧ Agrees doc (w.highlight doc lines).2 (w'.highlight doc lines).2 := by
  cases hl : w'.looksAt? doc with
  | none =>
      rw [highlight_of_none hl, highlight_of_none (h.looksAt?.trans hl)]
      exact ⟨rfl, h⟩
  | some l =>
      rw [highlight_of_some hl, highlight_of_some (h.looksAt?.trans hl), h.cache]
      refine ⟨rfl, h.registry, h.enabled, ?_⟩
      rw [cache_setCache, cache_setCache, if_pos rfl, if_pos rfl]

/-- A call that is about the document, or about no document, keeps agreement. -/
lemma Agrees.call (h : Agrees doc w w') {c : Call} (hc : c.doc? = some doc ∨ c.doc? = none) :
    Agrees doc (w.call c) (w'.call c) := by
  have hdoc : ∀ d, c.doc? = some d → d = doc := fun d hd => by
    rcases hc with hc | hc
    · exact Option.some.inj (hd.symm.trans hc)
    · cases hd.symm.trans hc
  cases c with
  | toggle => exact ⟨h.registry, congrArg (!·) h.enabled, h.cache⟩
  | addLanguage l => exact ⟨congrArg (·.add l) h.registry, h.enabled, h.cache⟩
  | highlight d lines =>
      obtain rfl := hdoc d rfl
      exact (h.highlight lines).2
  | _ d =>
      obtain rfl := hdoc d rfl
      refine ⟨h.registry, h.enabled, ?_⟩
      simp only [Workspace.call, setLanguage, cache_setCache, cache_removeCache,
        cache_invalidateFrom, if_pos, h.cache, h.registry]

/-- So does any request that is about the document, or about none. -/
lemma Agrees.after (h : Agrees doc w w') {r : Request} (hr : r.doc? = some doc ∨ r.doc? = none) :
    Agrees doc (w.after r) (w'.after r) := by
  cases r with
  | call c => exact h.call hr
  | _ d =>
      obtain rfl : d = doc := by simpa [Request.doc?] using hr
      refine ⟨h.registry, h.enabled, ?_⟩
      simp only [Workspace.after, cache_setCache, if_pos, h.cache]

/-- Agreeing workspaces give the same answers about the document. -/
lemma Agrees.answer (h : Agrees doc w w') {r : Request} (hr : r.doc? = some doc) :
    w.answer r = w'.answer r := by
  cases r with
  | call c =>
      cases c with
      | highlight d lines =>
          obtain rfl : d = doc := Option.some.inj hr
          exact congrArg Answer.tokens (h.highlight lines).1
      | _ => rfl
  | _ d =>
      obtain rfl : d = doc := Option.some.inj hr
      simp only [Workspace.answer, h.cache]

/-- A request about another document does not matter. -/
lemma Agrees.skip (h : Agrees doc w w') {r : Request} {other : ℕ} (hr : r.doc? = some other)
    (hne : other ≠ doc) : Agrees doc (w.after r) w' := by
  cases r with
  | call c =>
      have hdoc : c.doc? ≠ some doc := fun he => hne (Option.some.inj (hr.symm.trans he))
      have hadd : ∀ l, c ≠ .addLanguage l := by
        rintro l rfl
        cases hr
      have htoggle : c ≠ .toggle := by
        rintro rfl
        cases hr
      exact ⟨(registry_call w hadd).trans h.registry, (enabled_call w htoggle).trans h.enabled,
        (cache_call_of_ne w hdoc).trans h.cache⟩
  | _ d =>
      obtain rfl : d = other := Option.some.inj hr
      refine ⟨h.registry, h.enabled, ?_⟩
      rw [Workspace.after, cache_setCache, if_neg hne, h.cache]

/-- Whether a request remains when those about other documents are left out. -/
def Request.concerns (doc : ℕ) (r : Request) : Bool := r.doc? = some doc || r.doc? = none

/-- Two workspaces that agree on a document give the same answers about it, also if one of them does
not get the requests about other documents. -/
lemma Agrees.log (h : Agrees doc w w') (requests : List Request) :
    (w.log requests).filter (·.isAbout doc)
      = (w'.log (requests.filter (·.concerns doc))).filter (·.isAbout doc) := by
  induction requests generalizing w w' with
  | nil => rfl
  | cons r requests ih =>
      by_cases hr : r.doc? = some doc ∨ r.doc? = none
      · have hkept : r.concerns doc := by simpa [Request.concerns] using hr
        have hlater := ih (h.after hr)
        rw [List.filter_cons_of_pos hkept, Workspace.log, Workspace.log]
        by_cases hdoc : r.doc? = some doc
        · rw [List.filter_cons_of_pos (by simpa [Exchange.isAbout] using hdoc),
            List.filter_cons_of_pos (by simpa [Exchange.isAbout] using hdoc), hlater, h.enabled,
            h.answer hdoc]
        · rw [List.filter_cons_of_neg (by simpa [Exchange.isAbout] using hdoc),
            List.filter_cons_of_neg (by simpa [Exchange.isAbout] using hdoc), hlater]
      · -- only one of the two gets this request, and its answer is left out
        have hdropped : ¬r.concerns doc := by simpa [Request.concerns] using hr
        obtain ⟨hdoc, hsome⟩ := not_or.mp hr
        obtain ⟨other, hother⟩ := Option.ne_none_iff_exists'.mp hsome
        rw [List.filter_cons_of_neg hdropped, Workspace.log,
          List.filter_cons_of_neg (by simpa [Exchange.isAbout] using hdoc)]
        exact ih (h.skip hother fun he => hdoc (he ▸ hother))

/-! ### Looks while highlighting is off -/

/-- A look while highlighting is off finds no tokens and changes nothing. -/
lemma after_of_isIdle (w : Workspace) {r : Request}
    (h : (⟨r, w.enabled, w.answer r⟩ : Exchange).isIdle) :
    ∃ doc lines, r = .call (.highlight doc lines) ∧ w.answer r = .tokens (lines.map fun _ => [])
      ∧ w.after r = w := by
  cases r with
  | call c =>
      cases c with
      | highlight doc lines =>
          have hoff : ¬w.enabled := by simpa [Exchange.isIdle] using h
          have hnone : w.looksAt? doc = none := if_neg hoff
          refine ⟨doc, lines, rfl, ?_, ?_⟩
          · rw [answer, highlight_of_none hnone]
          · rw [after, call, highlight_of_none hnone]
      | _ => exact absurd h Bool.false_ne_true
  | _ => exact absurd h Bool.false_ne_true

lemma log_of_active (w : Workspace) (requests : List Request) :
    w.log (((w.log requests).filter (!·.isIdle)).map (·.request))
      = (w.log requests).filter (!·.isIdle) := by
  induction requests generalizing w with
  | nil => rfl
  | cons r requests ih =>
      rw [log, List.filter_cons]
      split
      · rw [List.map_cons, log, ih]
      · rename_i hidle
        obtain ⟨doc, lines, -, -, hafter⟩ := w.after_of_isIdle (by simpa using hidle)
        rw [hafter]
        exact ih w

lemma answer_of_isIdle (w : Workspace) (requests : List Request) :
    ∀ e ∈ w.log requests, e.isIdle → ∃ doc lines, e.request = .call (.highlight doc lines)
      ∧ e.answer = .tokens (lines.map fun _ => []) := by
  induction requests generalizing w with
  | nil => exact fun e he => absurd he List.not_mem_nil
  | cons r requests ih =>
      refine List.forall_mem_cons.mpr ⟨fun hidle => ?_, ih (w.after r)⟩
      obtain ⟨doc, lines, hr, hanswer, -⟩ := w.after_of_isIdle hidle
      exact ⟨doc, lines, hr, hanswer⟩

/-- **Documents do not interfere, and looks while highlighting is off leave no trace.** The answers
about a document are those of the run without the requests about other documents. All answers are
those of the run without the looks while highlighting is off, which find no tokens in any line. -/
theorem log_eq_of_deletions (w : Workspace) (doc : ℕ) (requests : List Request) :
    (w.log requests).filter (·.isAbout doc)
        = (w.log (requests.filter (·.concerns doc))).filter (·.isAbout doc)
      ∧ (w.log requests).filter (!·.isIdle)
        = w.log (((w.log requests).filter (!·.isIdle)).map (·.request))
      ∧ ∀ e ∈ w.log requests, e.isIdle → ∃ d lines, e.request = .call (.highlight d lines)
        ∧ e.answer = .tokens (lines.map fun _ => []) :=
  ⟨(Agrees.refl doc w).log requests, (w.log_of_active requests).symm, w.answer_of_isIdle requests⟩

end Workspace

end ShellSyntax

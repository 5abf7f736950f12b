import Mathlib.Data.List.Infix
import Mathlib.Data.List.Induction
import ShellSyntax.Proofs.LineCache.Refresh
import ShellSyntax.Proofs.Workspace.Calls

/-!
Highlighting by way of a cache finds what tokenizing from scratch finds.

* `Workspace.Report`, `Workspace.report`: what a host has let a workspace know of a document: its
  lines when they were last looked at, and the lines reported as edited since;
* `Workspace.Mirrors`: the invariant. A document's cache is that of the lines last looked at, less
  the reported ones;
* `Workspace.mirrors_call`, `Workspace.mirrors_run`: a call keeps it, and so does a run, as long as
  what is looked at differs from what was last looked at by reported lines only;
* `Workspace.highlight_eq_tokenizeLines`: in such a run each look finds the tokens and end states of
  tokenizing from scratch.
-/

namespace ShellSyntax

namespace Workspace

open LineCache (ofLines Reported)

/-! ### Reports -/

/-- What a host has let a workspace know of a document since the document's cache was made or
cleared. -/
structure Report where
  /-- The lines when they were last looked at. -/
  base : List Text
  /-- The lines reported as edited since then, the latest first. -/
  edited : List ℕ

namespace Report

/-- Nothing is known. -/
def none : Report := ⟨[], []⟩

/-- What is known of a document after a call to a workspace. -/
def after (r : Report) (w : Workspace) (doc : ℕ) : Call → Report
  | .highlight d lines => if d = doc ∧ (w.looksAt? doc).isSome then ⟨lines, []⟩ else r
  | .invalidateFrom d line | .invalidateCacheFrom d line =>
    if d = doc then { r with edited := line :: r.edited } else r
  | .setLanguage d _ _ | .setCacheLanguage d _ | .invalidateAll d | .replaceCache d
  | .removeCache d => if d = doc then none else r
  | .toggle | .addLanguage _ => r

/-- What is known of a document depends on what a call does to its cache. -/
lemma after_eq (r : Report) (w : Workspace) (doc : ℕ) (c : Call) :
    r.after w doc c = match w.effect doc c with
      | .none | .added _ => r
      | .looked lines => ⟨lines, []⟩
      | .edited line => { r with edited := line :: r.edited }
      | .cleared => none := by
  cases c with
  | toggle => rfl
  | addLanguage l => rfl
  | _ =>
      simp only [after, effect]
      split <;> rfl

/-- Each difference of lines from those last looked at is reported: where their number is the same,
at its very place, and where lines moved, above it. -/
structure Announces (r : Report) (lines : List Text) : Prop where
  same : lines.length = r.base.length → ∀ i, lines[i]? ≠ r.base[i]? → i ∈ r.edited
  moved : lines.length ≠ r.base.length → ∀ i, i < lines.length → i < r.base.length →
    lines[i]? ≠ r.base[i]? → ∃ d ∈ r.edited, d ≤ i

lemma Announces.reported {r : Report} {lines : List Text} (h : r.Announces lines) :
    Reported r.edited r.base lines where
  above i hl hb hi := by
    by_cases hlen : lines.length = r.base.length
    · exact ⟨i, h.same hlen i hi, Nat.le_refl i⟩
    · exact h.moved hlen i hl hb hi
  below hlen i hi := by
    refine ⟨i, h.same hlen i hi, Nat.le_refl i, ?_⟩
    by_contra hge
    rw [List.getElem?_eq_none (by omega), List.getElem?_eq_none (by omega)] at hi
    exact hi rfl

/-- Lines that are what they were need no report. -/
lemma announces_base (r : Report) : r.Announces r.base :=
  ⟨fun _ _ hne => absurd rfl hne, fun hlen => absurd rfl hlen⟩

/-- Nor do the first lines of a document. -/
lemma announces_of_base {r : Report} (h : r.base = []) (lines : List Text) :
    r.Announces lines := by
  refine ⟨fun hlen i hne => ?_, fun _ i _ hi => ?_⟩
  · rw [h] at hlen
    obtain rfl := List.length_eq_zero_iff.mp hlen
    exact absurd (by rw [h]) hne
  · rw [h] at hi
    exact absurd hi (Nat.not_lt_zero i)

end Report

/-- What is known of a document after calls, if `r` was known before. -/
def reportFrom (doc : ℕ) : Workspace → Report → List Call → Report
  | _, r, [] => r
  | w, r, c :: calls => reportFrom doc (w.call c) (r.after w doc c) calls

/-- What is known of a document after calls to a workspace that did not know it. -/
def report (w : Workspace) (doc : ℕ) (calls : List Call) : Report := reportFrom doc w .none calls

lemma report_concat (w : Workspace) (doc : ℕ) (calls : List Call) (c : Call) :
    w.report doc (calls ++ [c]) = (w.report doc calls).after (w.run calls) doc c := by
  suffices h : ∀ r, reportFrom doc w r (calls ++ [c])
      = (reportFrom doc w r calls).after (w.run calls) doc c from h .none
  induction calls generalizing w with
  | nil => exact fun r => rfl
  | cons c' calls ih => exact fun r => ih (w.call c') _

/-! ### The invariant -/

/-- A document's cache is that of the lines last looked at, less those reported as edited. Lines can
only have been looked at in the document's language. -/
def Mirrors (w : Workspace) (doc : ℕ) (r : Report) : Prop :=
  ∃ l, (r.base ≠ [] → w.language? doc = some l)
    ∧ w.cache doc = (ofLines l (w.cache doc).language r.base).invalidateEach r.edited

/-- A cleared cache mirrors a document of which nothing is known. -/
lemma mirrors_none {w : Workspace} {doc : ℕ}
    (h : w.cache doc = (w.cache doc).invalidateAll) : w.Mirrors doc .none :=
  ⟨shell, fun hne => absurd rfl hne, h⟩

/-- Of which language no lines were looked at does not matter. -/
lemma Mirrors.of_looksAt? {w : Workspace} {doc : ℕ} {r : Report} (h : w.Mirrors doc r)
    {l : Language} (hl : w.language? doc = some l) :
    w.cache doc = (ofLines l (w.cache doc).language r.base).invalidateEach r.edited := by
  obtain ⟨l', hl', hc⟩ := h
  by_cases hb : r.base = []
  · rw [hc, hb]
    simp [ofLines]
  · obtain rfl : l = l' := Option.some.inj (hl.symm.trans (hl' hb))
    exact hc

lemma language?_looksAt? {w : Workspace} {doc : ℕ} {l : Language}
    (h : w.looksAt? doc = some l) : w.language? doc = some l := by
  rw [looksAt?] at h
  split at h
  · exact h
  · cases h

lemma Mirrors.congr {w w' : Workspace} {doc : ℕ} {r : Report} (h : w.Mirrors doc r)
    (hcache : w'.cache doc = w.cache doc) (hregistry : w'.registry = w.registry) :
    w'.Mirrors doc r := by
  obtain ⟨l, hl, hc⟩ := h
  refine ⟨l, fun hb => ?_, by rw [hcache]; exact hc⟩
  rw [language?, hcache, hregistry]
  exact hl hb

/-- A new name changes no document's language, once lines have been looked at in it. -/
lemma Mirrors.addLanguage {w : Workspace} {doc : ℕ} {r : Report} (h : w.Mirrors doc r)
    {l' : Language} (hnew : w.registry.get? l'.name = none) : (w.addLanguage l').Mirrors doc r := by
  obtain ⟨l, hl, hc⟩ := h
  refine ⟨l, fun hb => ?_, hc⟩
  obtain ⟨name, hname, hget⟩ := Option.bind_eq_some_iff.mp (hl hb)
  refine Option.bind_eq_some_iff.mpr ⟨name, hname, ?_⟩
  rw [Workspace.addLanguage, Registry.get?_add, if_neg, hget]
  rintro rfl
  rw [hnew] at hget
  cases hget

/-- A look brings the cache to what it is of the lines looked at. -/
lemma Mirrors.highlight {w : Workspace} {doc : ℕ} {r : Report} (h : w.Mirrors doc r)
    {l : Language} (hl : w.looksAt? doc = some l) {lines : List Text}
    (hreport : Reported r.edited r.base lines) :
    w.highlight doc lines
      = ((ofLines l (w.cache doc).language lines).tokens,
          w.setCache doc (ofLines l (w.cache doc).language lines)) := by
  rw [highlight_of_some hl]
  have hc := h.of_looksAt? (language?_looksAt? hl)
  rw [show (w.cache doc).refresh l lines = ofLines l (w.cache doc).language lines by
    rw [hc, LineCache.refresh_invalidateEach l _ hreport, LineCache.language_invalidateEach]
    rfl]

lemma Mirrors.edited {w w' : Workspace} {doc : ℕ} {r : Report} (h : w.Mirrors doc r) (line : ℕ)
    (hregistry : w'.registry = w.registry)
    (hcache : w'.cache doc = (w.cache doc).invalidateFrom line) :
    w'.Mirrors doc { r with edited := line :: r.edited } := by
  obtain ⟨l, hl, hc⟩ := h
  refine ⟨l, fun hb => ?_, ?_⟩
  · rw [language?, hcache, hregistry]
    exact hl hb
  · rw [hcache]
    exact congrArg (·.invalidateFrom line) hc

/-- A look at lines whose differences were reported keeps the invariant. -/
lemma Mirrors.looked {w : Workspace} {doc : ℕ} {r : Report} (h : w.Mirrors doc r)
    {lines : List Text} (hreport : (w.looksAt? doc).isSome → Reported r.edited r.base lines) :
    (w.highlight doc lines).2.Mirrors doc (r.after w doc (.highlight doc lines)) := by
  cases hl : w.looksAt? doc with
  | none =>
      rw [highlight_of_none hl, Report.after, hl]
      simpa using h
  | some l =>
      rw [h.highlight hl (hreport (by rw [hl]; rfl)), Report.after, if_pos ⟨rfl, by rw [hl]; rfl⟩]
      refine ⟨l, fun _ => ?_, ?_⟩
      · rw [← language?_looksAt? hl, language?, language?, cache_setCache, if_pos rfl]
        rfl
      · rw [cache_setCache, if_pos rfl]
        rfl

/-- A call keeps the invariant, if it registers no known name again and looks at lines whose
differences were reported. -/
lemma mirrors_call {w : Workspace} {doc : ℕ} {r : Report} (h : w.Mirrors doc r) (c : Call)
    (hnew : ∀ l, c = .addLanguage l → w.registry.get? l.name = none)
    (hreport : ∀ lines, c = .highlight doc lines → (w.looksAt? doc).isSome →
      Reported r.edited r.base lines) :
    (w.call c).Mirrors doc (r.after w doc c) := by
  have hcall := w.call_effect doc c
  rw [r.after_eq]
  cases he : w.effect doc c with
  | none =>
      rw [he] at hcall
      exact h.congr hcall.2 hcall.1
  | looked lines =>
      rw [he] at hcall
      obtain ⟨rfl, hl⟩ := hcall
      have hlooked := h.looked (hreport lines rfl)
      rwa [r.after_eq, he] at hlooked
  | edited line =>
      rw [he] at hcall
      exact h.edited line hcall.1 hcall.2
  | cleared =>
      rw [he] at hcall
      exact mirrors_none hcall.2
  | added l =>
      rw [he] at hcall
      subst hcall
      exact h.addLanguage (hnew l rfl)

/-! ### Runs -/

/-- A run keeps the invariant, if it registers no name twice and looks only at lines whose
differences were reported. -/
lemma mirrors_run {w : Workspace} {doc : ℕ} (hw : w.cache doc = (w.cache doc).invalidateAll)
    (calls : List Call)
    (hnew : ∀ before l, before ++ [.addLanguage l] <+: calls →
      (w.run before).registry.get? l.name = none)
    (hreport : ∀ before lines, before ++ [.highlight doc lines] <+: calls →
      ((w.run before).looksAt? doc).isSome →
      Reported (w.report doc before).edited (w.report doc before).base lines) :
    (w.run calls).Mirrors doc (w.report doc calls) := by
  -- calls are added at the end, where the state and the reports before them are known
  induction calls using List.reverseRecOn with
  | nil => exact mirrors_none hw
  | append_singleton calls c ih =>
      have hpre : ∀ {before}, before <+: calls → before <+: calls ++ [c] := fun h =>
        h.trans (List.prefix_append _ _)
      rw [run_append, report_concat]
      refine mirrors_call (ih (fun b l hb => hnew b l (hpre hb)) fun b ls hb =>
        hreport b ls (hpre hb)) c ?_ ?_
      · rintro l rfl
        exact hnew calls l (List.prefix_refl _)
      · rintro lines rfl
        exact hreport calls lines (List.prefix_refl _)

/-- A run of calls that lets a workspace know of a document what it has to know. The document is
new, no name is registered twice, and whenever the document's cache is brought up to date, the
differences from what was last looked at were announced. -/
structure Announced (w : Workspace) (doc : ℕ) (calls : List Call) : Prop where
  fresh : w.cache doc = .empty
  registered : ∀ before l, before ++ [.addLanguage l] <+: calls →
    (w.run before).registry.get? l.name = none
  announced : ∀ before lines, before ++ [.highlight doc lines] <+: calls →
    ((w.run before).looksAt? doc).isSome → (w.report doc before).Announces lines

/-- **Highlighting by way of the cache is tokenizing from scratch.** In a run of calls that
announces all differences, each look that brings a document's cache up to date finds the tokens of
tokenizing all lines from the root, and leaves their end states behind, and no others. -/
theorem highlight_eq_tokenizeLines {w : Workspace} {doc : ℕ} {calls : List Call}
    (h : w.Announced doc calls) {before : List Call} {lines : List Text}
    (hlook : before ++ [.highlight doc lines] <+: calls) {l : Language}
    (hl : (w.run before).looksAt? doc = some l) :
    ((w.run before).highlight doc lines).1 = (l.tokenizeLines lines .root).map (·.tokens)
      ∧ ∀ i, (((w.run before).highlight doc lines).2.cache doc).lineState? i
        = (l.tokenizeLines lines .root)[i]?.map (·.endState) := by
  have hbefore : before <+: calls := (List.prefix_append _ _).trans hlook
  have hmirrors : (w.run before).Mirrors doc (w.report doc before) :=
    mirrors_run (by rw [h.fresh]; rfl) before (fun b l hb => h.registered b l (hb.trans hbefore))
      fun b ls hb hs => (h.announced b ls (hb.trans hbefore) hs).reported
  have hreport := (h.announced before lines hlook (by rw [hl]; rfl)).reported
  rw [hmirrors.highlight hl hreport]
  refine ⟨?_, fun i => ?_⟩
  · exact LineCache.tokens_ofLines l _ lines
  · rw [cache_setCache, if_pos rfl]
    exact LineCache.lineState?_ofLines l _ lines i

/-- Calls about a script of two lines, of which the second is edited between two looks. -/
def substitutionEdit : List Call :=
  [.setCacheLanguage 0 (some "Shell"), .highlight 0 [['$', '(', 'a'], ['b']],
    .invalidateFrom 0 1, .highlight 0 [['$', '(', 'a'], ['b', ')', 'c']]]

/-- The second look finds the substitution that ends in the second line. -/
theorem highlight_substitutionEdit :
    Announced .start 0 substitutionEdit
      ∧ ((start.run (substitutionEdit.take 3)).highlight 0 [['$', '(', 'a'], ['b', ')', 'c']]).1
        = (shell.tokenizeLines [['$', '(', 'a'], ['b', ')', 'c']] .root).map (·.tokens) := by
  have hshell : (start.call (.setCacheLanguage 0 (some "Shell"))).looksAt? 0 = some shell := by
    simp only [call, looksAt?, language?, cache_setCache, if_pos]
    exact Registry.get?_add Registry.empty shell "Shell"
  have hreport : start.report 0 (substitutionEdit.take 3) = ⟨[['$', '(', 'a'], ['b']], [1]⟩ := by
    simp [substitutionEdit, report, reportFrom, Report.after, hshell]
  have h : Announced .start 0 substitutionEdit := by
    refine ⟨rfl, ?_, ?_⟩
    · rintro before l ⟨after, hb⟩
      rcases before with _ | ⟨c₁, _ | ⟨c₂, _ | ⟨c₃, _ | ⟨c₄, before⟩⟩⟩⟩ <;>
        simp [substitutionEdit] at hb
    · rintro before lines ⟨after, hb⟩ -
      rcases before with _ | ⟨c₁, _ | ⟨c₂, _ | ⟨c₃, _ | ⟨c₄, before⟩⟩⟩⟩ <;>
        simp [substitutionEdit] at hb
      · obtain ⟨rfl, rfl, -⟩ := hb
        constructor <;> simp [report, reportFrom, Report.after, Report.none]
      · obtain ⟨rfl, rfl, rfl, rfl, -⟩ := hb
        rw [show [_, _, _] = substitutionEdit.take 3 from rfl, hreport]
        constructor
        · rintro - i hi
          rcases i with _ | _ | i <;> simp at hi ⊢
        · intro hlen
          exact absurd rfl hlen
  refine ⟨h, (highlight_eq_tokenizeLines h (List.prefix_refl _) ?_).1⟩
  show ((((start.call (.setCacheLanguage 0 (some "Shell"))).highlight 0 _).2.invalidateFrom
    0 1).looksAt? 0) = _
  rw [looksAt?_invalidateFrom, looksAt?_highlight, hshell]

end Workspace

end ShellSyntax

import Mathlib.Data.List.Infix
import Mathlib.Data.List.Induction
import ShellSyntax.Proofs.LineCache.Outdated
import ShellSyntax.Proofs.Workspace.Incremental

/-!
Highlighting after the language of a document was defined anew.

A new definition of a language leaves the caches of documents as they are, so lines that were looked
at before keep the tokens of the old definition until they are looked at again.

* `Workspace.outdated`: the lines of a document that may have been looked at in an earlier
  definition only;
* `Workspace.Recalls`: the invariant. A document's cache is that of the lines last looked at, each
  of them in the current definition unless it is outdated, less the reported ones;
* `Workspace.recalls_call`, `Workspace.recalls_run`: a call keeps it, and so does a run;
* `Workspace.highlight_eq_registered`: a look that leaves no line outdated finds the tokens of the
  current definition. `Workspace.highlight_redefinition`: other looks may not.
-/

namespace ShellSyntax

namespace Workspace

open LineCache (Chained PassedOver Reported)

/-! ### Outdated lines -/

/-- The lines that have text. In those that have none, all languages find the same. -/
def Report.withText (r : Report) : List ℕ :=
  (List.range r.base.length).filter fun i => r.base[i]? ≠ some []

/-- The outdated lines of a document after a call. A new definition of its language makes them all
outdated, and a look those that it does not pass over up to date. -/
def outdatedAfter (w : Workspace) (doc : ℕ) (r : Report) (outdated : List ℕ) (c : Call) : List ℕ :=
  match w.effect doc c with
  | .none | .edited _ => outdated
  | .looked lines => outdated.filter fun i =>
      i < lines.length ∧ PassedOver r.edited r.base.length lines.length i
  | .cleared => []
  | .added l => if (w.cache doc).language = some l.name then r.withText else outdated

/-- The outdated lines of a document after calls, if it has some before, and `r` is known. -/
def outdatedFrom (doc : ℕ) : Workspace → Report → List ℕ → List Call → List ℕ
  | _, _, outdated, [] => outdated
  | w, r, outdated, c :: calls =>
    outdatedFrom doc (w.call c) (r.after w doc c) (w.outdatedAfter doc r outdated c) calls

/-- The outdated lines of a document after calls to a workspace that did not know it. -/
def outdated (w : Workspace) (doc : ℕ) (calls : List Call) : List ℕ :=
  outdatedFrom doc w .none [] calls

lemma outdated_concat (w : Workspace) (doc : ℕ) (calls : List Call) (c : Call) :
    w.outdated doc (calls ++ [c])
      = (w.run calls).outdatedAfter doc (w.report doc calls) (w.outdated doc calls) c := by
  suffices h : ∀ r o, outdatedFrom doc w r o (calls ++ [c])
      = (w.run calls).outdatedAfter doc (reportFrom doc w r calls) (outdatedFrom doc w r o calls) c
    from h .none []
  induction calls generalizing w with
  | nil => exact fun r o => rfl
  | cons c' calls ih => exact fun r o => ih (w.call c') _ _

/-! ### The invariant -/

/-- A document's cache is that of the lines last looked at, in the current definition of its
language as far as they are not outdated, less those reported as edited. -/
def Recalls (w : Workspace) (doc : ℕ) (r : Report) (outdated : List ℕ) : Prop :=
  ∃ l old, (r.base ≠ [] → w.language? doc = some l) ∧ Chained l (· ∈ outdated) .root r.base old
    ∧ w.cache doc
      = (⟨(w.cache doc).language, old, r.base.length⟩ : LineCache).invalidateEach r.edited

variable {w w' : Workspace} {doc : ℕ} {r : Report} {o : List ℕ}

/-- Of a cleared cache nothing is known. -/
lemma recalls_none (h : w.cache doc = (w.cache doc).invalidateAll) : w.Recalls doc .none o :=
  ⟨shell, [], fun hne => absurd rfl hne, trivial, h⟩

/-- If no lines were looked at, it does not matter in which language. -/
lemma Recalls.of_language? (h : w.Recalls doc r o) {l : Language} (hl : w.language? doc = some l) :
    ∃ old, Chained l (· ∈ o) .root r.base old ∧ w.cache doc
      = (⟨(w.cache doc).language, old, r.base.length⟩ : LineCache).invalidateEach r.edited := by
  obtain ⟨l', old, hl', hold, hc⟩ := h
  by_cases hb : r.base = []
  · rw [hb] at hold hc ⊢
    obtain rfl := List.length_eq_zero_iff.mp hold.length_eq
    exact ⟨[], trivial, hc⟩
  · obtain rfl : l = l' := Option.some.inj (hl.symm.trans (hl' hb))
    exact ⟨old, hold, hc⟩

lemma Recalls.congr (h : w.Recalls doc r o) (hcache : w'.cache doc = w.cache doc)
    (hregistry : w'.registry = w.registry) : w'.Recalls doc r o := by
  obtain ⟨l, old, hl, hold, hc⟩ := h
  refine ⟨l, old, fun hb => ?_, hold, by rw [hcache]; exact hc⟩
  rw [language?, hcache, hregistry]
  exact hl hb

lemma Recalls.edited (h : w.Recalls doc r o) (line : ℕ) (hregistry : w'.registry = w.registry)
    (hcache : w'.cache doc = (w.cache doc).invalidateFrom line) :
    w'.Recalls doc { r with edited := line :: r.edited } o := by
  obtain ⟨l, old, hl, hold, hc⟩ := h
  refine ⟨l, old, fun hb => ?_, hold, ?_⟩
  · rw [language?, hcache, hregistry]
    exact hl hb
  · rw [hcache]
    exact congrArg (·.invalidateFrom line) hc

/-- A new definition of a document's language makes the lines that have text outdated. Other new
definitions do not matter. -/
lemma Recalls.addLanguage (h : w.Recalls doc r o) (l' : Language) :
    (w.addLanguage l').Recalls doc r
      (if (w.cache doc).language = some l'.name then r.withText else o) := by
  obtain ⟨l, old, hl, hold, hc⟩ := h
  split
  · rename_i hname
    refine ⟨l', old, fun _ => ?_, (hold.redefine l').mono fun i hi hne => ?_, hc⟩
    · have hlanguage : ((w.addLanguage l').cache doc).language = some l'.name := hname
      rw [language?, hlanguage]
      exact (Registry.get?_add w.registry l' l'.name).trans (if_pos rfl)
    · exact List.mem_filter.mpr ⟨List.mem_range.mpr hi, decide_eq_true hne⟩
  · rename_i hname
    refine ⟨l, old, fun hb => ?_, hold, hc⟩
    obtain ⟨name, hlanguage, hget⟩ := Option.bind_eq_some_iff.mp (hl hb)
    refine Option.bind_eq_some_iff.mpr ⟨name, hlanguage, ?_⟩
    rw [Workspace.addLanguage, Registry.get?_add, if_neg, hget]
    rintro rfl
    exact hname hlanguage

/-- A look at a document brings up to date what it does not pass over. -/
lemma Recalls.highlight (h : w.Recalls doc r o) {l : Language} (hl : w.looksAt? doc = some l)
    {lines : List Text} (hreport : Reported r.edited r.base lines) :
    ∃ new, w.highlight doc lines
        = (LineCache.tokens ⟨(w.cache doc).language, new, lines.length⟩,
          w.setCache doc ⟨(w.cache doc).language, new, lines.length⟩)
      ∧ Chained l (fun i => i ∈ o ∧ PassedOver r.edited r.base.length lines.length i) .root
        lines new := by
  obtain ⟨old, hold, hc⟩ := h.of_language? (language?_looksAt? hl)
  obtain ⟨new, hrefresh, hnew⟩ := hold.refresh (w.cache doc).language hreport
  rw [← hc] at hrefresh
  refine ⟨new, ?_, hnew⟩
  rw [highlight_of_some hl, hrefresh]

lemma Recalls.looked (h : w.Recalls doc r o) {l : Language} (hl : w.looksAt? doc = some l)
    {lines : List Text} (hreport : Reported r.edited r.base lines) :
    (w.highlight doc lines).2.Recalls doc ⟨lines, []⟩ (o.filter fun i =>
      i < lines.length ∧ PassedOver r.edited r.base.length lines.length i) := by
  obtain ⟨new, hlook, hnew⟩ := h.highlight hl hreport
  rw [hlook]
  refine ⟨l, new, fun _ => ?_, hnew.mono fun i hi hp => ?_, ?_⟩
  · rw [← language?_looksAt? hl, language?, language?, cache_setCache, if_pos rfl]
    rfl
  · exact List.mem_filter.mpr ⟨hp.1, decide_eq_true ⟨hi, hp.2⟩⟩
  · rw [cache_setCache, if_pos rfl]
    rfl

/-- A call keeps the invariant, if it looks at lines whose differences were reported. -/
lemma recalls_call (h : w.Recalls doc r o) (c : Call)
    (hreport : ∀ lines, c = .highlight doc lines → (w.looksAt? doc).isSome →
      Reported r.edited r.base lines) :
    (w.call c).Recalls doc (r.after w doc c) (w.outdatedAfter doc r o c) := by
  have hcall := w.call_effect doc c
  rw [r.after_eq, outdatedAfter]
  cases he : w.effect doc c with
  | none =>
      rw [he] at hcall
      exact h.congr hcall.2 hcall.1
  | looked lines =>
      rw [he] at hcall
      obtain ⟨rfl, hl⟩ := hcall
      obtain ⟨l, hl⟩ := Option.isSome_iff_exists.mp hl
      exact h.looked hl (hreport lines rfl (by rw [hl]; rfl))
  | edited line =>
      rw [he] at hcall
      exact h.edited line hcall.1 hcall.2
  | cleared =>
      rw [he] at hcall
      exact recalls_none hcall.2
  | added l =>
      rw [he] at hcall
      subst hcall
      exact h.addLanguage l

/-! ### Runs -/

/-- A run of calls about a new document in which all edits are announced: whenever the document's
cache is brought up to date, each difference from what was last looked at was reported. -/
structure EditsAnnounced (w : Workspace) (doc : ℕ) (calls : List Call) : Prop where
  fresh : w.cache doc = .empty
  announced : ∀ before lines, before ++ [.highlight doc lines] <+: calls →
    ((w.run before).looksAt? doc).isSome → (w.report doc before).Announces lines

lemma editsAnnounced_concat {calls : List Call} {c : Call} :
    w.EditsAnnounced doc (calls ++ [c]) ↔ w.EditsAnnounced doc calls
      ∧ ∀ lines, c = .highlight doc lines → ((w.run calls).looksAt? doc).isSome →
        (w.report doc calls).Announces lines := by
  refine ⟨fun h => ⟨⟨h.fresh, fun b ls hb => ?_⟩, ?_⟩, fun ⟨h, hc⟩ => ⟨h.fresh, fun b ls hb => ?_⟩⟩
  · exact h.announced b ls (hb.trans (List.prefix_append _ _))
  · rintro lines rfl
    exact h.announced calls lines (List.prefix_refl _)
  · rcases List.prefix_concat_iff.mp hb with heq | hb
    · obtain ⟨rfl, hlast⟩ := List.append_inj' heq rfl
      exact hc ls (List.singleton_inj.mp hlast).symm
    · exact h.announced b ls hb

/-- In a run that announces all edits, languages may be defined anew at any time. -/
lemma recalls_run {calls : List Call} (h : w.EditsAnnounced doc calls) :
    (w.run calls).Recalls doc (w.report doc calls) (w.outdated doc calls) := by
  induction calls using List.reverseRecOn with
  | nil => exact recalls_none (by rw [run_nil, h.fresh]; rfl)
  | append_singleton calls c ih =>
      obtain ⟨hcalls, hc⟩ := editsAnnounced_concat.mp h
      rw [run_append, report_concat, outdated_concat]
      exact recalls_call (ih hcalls) c fun lines hlines hl => (hc lines hlines hl).reported

/-- **A look that leaves no line outdated follows the current definition of the language.** In a run
that announces all edits, in which languages may be defined anew at any time, it finds the tokens of
tokenizing all lines from the root in the definition that the document's language has now, and
leaves their end states behind, and no others. -/
theorem highlight_eq_registered {w : Workspace} {doc : ℕ} {calls : List Call}
    (h : w.EditsAnnounced doc calls) {before : List Call} {lines : List Text}
    (hlook : before ++ [.highlight doc lines] <+: calls) (hon : (w.run before).enabled)
    {name : String} (hname : ((w.run before).cache doc).language = some name) {l : Language}
    (hl : (w.run before).registry.get? name = some l)
    (hcurrent : w.outdated doc (before ++ [.highlight doc lines]) = []) :
    ((w.run before).highlight doc lines).1 = (l.tokenizeLines lines .root).map (·.tokens)
      ∧ ∀ i, (((w.run before).highlight doc lines).2.cache doc).lineState? i
        = (l.tokenizeLines lines .root)[i]?.map (·.endState) := by
  have hlooks : (w.run before).looksAt? doc = some l := by
    rw [looksAt?, if_pos hon, language?, hname]
    exact hl
  have hsome : ((w.run before).looksAt? doc).isSome := by rw [hlooks]; rfl
  have hbefore : before <+: calls := (List.prefix_append _ _).trans hlook
  have hrecalls : (w.run before).Recalls doc (w.report doc before) (w.outdated doc before) :=
    recalls_run ⟨h.fresh, fun b ls hb => h.announced b ls (hb.trans hbefore)⟩
  obtain ⟨new, hanswer, hnew⟩ :=
    hrecalls.highlight hlooks (h.announced before lines hlook hsome).reported
  -- no line that is passed over is outdated
  have heffect : (w.run before).effect doc (.highlight doc lines) = .looked lines :=
    if_pos ⟨rfl, hsome⟩
  rw [outdated_concat, outdatedAfter, heffect] at hcurrent
  have hknown : new = LineCache.known l lines .root := by
    refine hnew.eq_known fun i hi hp => ?_
    exact List.filter_eq_nil_iff.mp hcurrent i hp.1 (decide_eq_true ⟨hi, hp.2⟩)
  rw [hanswer, hknown]
  refine ⟨LineCache.tokens_ofLines l _ lines, fun i => ?_⟩
  rw [cache_setCache, if_pos rfl]
  exact LineCache.lineState?_ofLines l _ lines i

/-- Calls about a script whose language is defined anew between two looks, with nothing in it. -/
def redefinition : List Call :=
  [.setCacheLanguage 0 (some "Shell"), .highlight 0 [['i', 'f']], .addLanguage (.named "Shell")]

lemma editsAnnounced_redefinition : start.EditsAnnounced 0 redefinition := by
  have hnil : start.EditsAnnounced 0 [] :=
    ⟨rfl, fun b ls hb => by simp at hb⟩
  have hset : start.EditsAnnounced 0 (redefinition.take 1) :=
    editsAnnounced_concat.mpr ⟨hnil, fun lines h => by cases h⟩
  have hlook : start.EditsAnnounced 0 (redefinition.take 2) :=
    editsAnnounced_concat.mpr ⟨hset, fun lines _ _ => Report.announces_of_base rfl lines⟩
  exact editsAnnounced_concat.mpr ⟨hlook, fun lines h => by cases h⟩

/-- If the script is edited as well, the second look finds the tokens of the new definition. -/
theorem highlight_eq_registered_edited :
    let calls := redefinition ++ [.invalidateFrom 0 0]
    (start.EditsAnnounced 0 (calls ++ [.highlight 0 [['f', 'i']]])
        ∧ start.outdated 0 (calls ++ [.highlight 0 [['f', 'i']]]) = [])
      ∧ ((start.run calls).highlight 0 [['f', 'i']]).1
        = ((Language.named "Shell").tokenizeLines [['f', 'i']] .root).map (·.tokens) := by
  intro calls
  have hreport : (start.report 0 calls).base = [['i', 'f']]
      ∧ 0 ∈ (start.report 0 calls).edited := by decide +kernel
  have hcalls : start.EditsAnnounced 0 (calls ++ [.highlight 0 [['f', 'i']]]) := by
    refine editsAnnounced_concat.mpr ⟨editsAnnounced_concat.mpr
      ⟨editsAnnounced_redefinition, fun lines h => by cases h⟩, ?_⟩
    rintro lines ⟨⟩ -
    refine ⟨fun _ i hi => ?_, fun hlen => absurd (by rw [hreport.1]; rfl) hlen⟩
    cases i with
    | zero => exact hreport.2
    | succ i => exact absurd (by rw [hreport.1]; rfl) hi
  have hcurrent : start.outdated 0 (calls ++ [.highlight 0 [['f', 'i']]]) = [] := by
    decide +kernel
  have hname : ((start.run calls).cache 0).language = some "Shell" := by decide +kernel
  exact ⟨⟨hcalls, hcurrent⟩,
    (highlight_eq_registered hcalls (List.prefix_refl _) rfl hname rfl hcurrent).1⟩

/-- If not, it finds the keyword of the old one. -/
theorem highlight_redefinition :
    start.EditsAnnounced 0 (redefinition ++ [.highlight 0 [['i', 'f']]])
      ∧ (start.run redefinition).looksAt? 0 = some (.named "Shell")
      ∧ ((start.run redefinition).highlight 0 [['i', 'f']]).1 = [[⟨⟨0, 2⟩, .keyword⟩]]
      ∧ ((Language.named "Shell").tokenizeLines [['i', 'f']] .root).map (·.tokens)
        = [[⟨⟨0, 1⟩, .plain⟩, ⟨⟨1, 2⟩, .plain⟩]] := by
  have hbase : (start.report 0 redefinition).base = [['i', 'f']] := by decide +kernel
  refine ⟨editsAnnounced_concat.mpr ⟨editsAnnounced_redefinition, ?_⟩, rfl, ?_, ?_⟩
  · rintro lines ⟨⟩ -
    rw [← hbase]
    exact Report.announces_base _
  · decide +kernel
  · decide +kernel

end Workspace

end ShellSyntax

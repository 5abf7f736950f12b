import ShellSyntax.Proofs.Registry.History
import ShellSyntax.Proofs.Workspace.Incremental

/-!
How the language of a document is found out.

* `Workspace.History`: how a workspace has come about, and the languages it was given on the way.
  `Workspace.History.registry`: its registry depends on these languages alone;
* `Workspace.History.ofFileName?_eq`, `Workspace.History.ofFirstLine?_eq`: file extensions and
  interpreters belong to the last language that lists them;
* `Workspace.History.get?_eq`: so do names, and what is found out is always a name that is known;
* `Workspace.History.detection`: a document whose language was found out is highlighted in it.
-/

namespace ShellSyntax

namespace Workspace

open FileName (extension?)

/-- How a workspace has come about, with the languages it was given, in order: it was made with the
shell language, and languages were added between other calls. -/
inductive History : Workspace → List Language → Prop where
  | start : History .start [shell]
  | ofSettings (s : Settings) : History (.ofSettings s) [s.language]
  | add {w : Workspace} {known : List Language} (h : History w known) (l : Language) :
      History (w.addLanguage l) (known ++ [l])
  | call {w : Workspace} {known : List Language} (h : History w known) (c : Call)
      (hc : ∀ l, c ≠ .addLanguage l) : History (w.call c) known

namespace History

variable {w : Workspace} {known : List Language}

/-- The registry is that of the languages that were given. -/
lemma registry (h : History w known) : w.registry = Registry.empty.addAll known := by
  induction h with
  | start | ofSettings => rfl
  | add h l ih => rw [Registry.addAll, List.foldl_append, addLanguage, ih]; rfl
  | call h c hc ih => rw [registry_call _ hc, ih]

/-- A file extension belongs to the last language that lists it. -/
lemma ofFileName?_eq (h : History w known) (path : Text) :
    w.registry.ofFileName? path = (extension? path).bind fun e =>
      (known.reverse.find? (·.hasExtension e)).map (·.name) := by
  rw [Registry.ofFileName?, h.registry]
  refine Option.bind_congr fun e _ => ?_
  rw [Registry.latest_addAll (·.extensions[e.lowercase]?) (·.hasExtension e) (·.name)
    fun r l => Registry.extensions_add r l e]
  exact Option.or_none

/-- An interpreter belongs to the last language that lists it. -/
lemma ofFirstLine?_eq (h : History w known) (line : Text) :
    w.registry.ofFirstLine? line = (interpreter? line).bind fun program =>
      (known.reverse.find? (·.isRunBy program)).map (·.name) := by
  rw [Registry.ofFirstLine?, h.registry]
  refine Option.bind_congr fun program _ => ?_
  rw [Registry.latest_addAll (·.interpreters[program]?) (·.isRunBy program) (·.name)
    fun r l => Registry.interpreters_add r l program]
  exact Option.or_none

/-- A name belongs to the last language that has it. -/
lemma get?_eq (h : History w known) (name : String) :
    w.registry.get? name = known.reverse.find? (·.name = name) := by
  rw [h.registry, Registry.get?_addAll]
  exact Option.or_none

/-- The name of a language that was given belongs to some language. -/
lemma exists_get? (h : History w known) {claims : Language → Bool} {name : String}
    (hname : (known.reverse.find? claims).map (·.name) = some name) :
    ∃ l, w.registry.get? name = some l := by
  obtain ⟨l, hl, rfl⟩ := Option.map_eq_some_iff.mp hname
  rw [h.get?_eq]
  refine Option.isSome_iff_exists.mp (List.find?_isSome.mpr ⟨l, List.mem_of_find?_eq_some hl, ?_⟩)
  exact decide_eq_true rfl

/-- What is found out is the name of some language. -/
lemma exists_detected (h : History w known) {name : String}
    (hname : (∃ path, w.registry.ofFileName? path = some name)
      ∨ ∃ line, w.registry.ofFirstLine? line = some name) :
    ∃ l, w.registry.get? name = some l := by
  rcases hname with ⟨path, hpath⟩ | ⟨line, hline⟩
  · rw [h.ofFileName?_eq] at hpath
    obtain ⟨e, -, he⟩ := Option.bind_eq_some_iff.mp hpath
    exact h.exists_get? he
  · rw [h.ofFirstLine?_eq] at hline
    obtain ⟨program, -, hprogram⟩ := Option.bind_eq_some_iff.mp hline
    exact h.exists_get? hprogram

end History

/-- A document whose language has just been set is highlighted from scratch in it. -/
lemma highlight_setLanguage {w : Workspace} {doc : ℕ} {fileName firstLine : Option Text}
    {name : String} {l : Language} (hon : w.enabled = true)
    (hname : ((fileName.bind w.registry.ofFileName?).orElse fun _ =>
      firstLine.bind w.registry.ofFirstLine?) = some name)
    (hl : w.registry.get? name = some l) (lines : List Text) :
    ((w.setLanguage doc fileName firstLine).highlight doc lines).1
      = (l.tokenizeLines lines .root).map (·.tokens) := by
  have hcache : (w.setLanguage doc fileName firstLine).cache doc
      = (w.cache doc).setLanguage (some name) := by
    rw [setLanguage, hname, cache_setCache, if_pos rfl]
  have hlooks : (w.setLanguage doc fileName firstLine).looksAt? doc = some l := by
    have henabled : (w.setLanguage doc fileName firstLine).enabled = true := hon
    rw [looksAt?, if_pos henabled, language?, hcache]
    exact hl
  have hmirrors : (w.setLanguage doc fileName firstLine).Mirrors doc .none :=
    mirrors_none (by rw [hcache]; rfl)
  rw [hmirrors.highlight hlooks (Report.announces_of_base rfl lines).reported]
  exact LineCache.tokens_ofLines l _ lines

/-- **Detection follows the languages a workspace was given.** A file is in the language that was
last of those that list its extension, in any letter case, and a script in that which was last of
those that list its interpreter. What is found out is among the names that are listed, and while
highlighting is on, the document is highlighted in the language that was last given that name. -/
theorem History.detection {w : Workspace} {known : List Language} (h : History w known) :
    (∀ path, w.registry.ofFileName? path = (extension? path).bind fun e =>
      (known.reverse.find? (·.hasExtension e)).map (·.name))
    ∧ (∀ line, w.registry.ofFirstLine? line = (interpreter? line).bind fun program =>
      (known.reverse.find? (·.isRunBy program)).map (·.name))
    ∧ (∀ name, ((∃ path, w.registry.ofFileName? path = some name)
        ∨ ∃ line, w.registry.ofFirstLine? line = some name) → name ∈ w.registry.names)
    ∧ ∀ (fileName firstLine : Option Text) (name : String),
      ((fileName.bind w.registry.ofFileName?).orElse fun _ =>
        firstLine.bind w.registry.ofFirstLine?) = some name → w.enabled = true →
      ∃ l, known.reverse.find? (·.name = name) = some l ∧ ∀ doc lines,
        ((w.setLanguage doc fileName firstLine).highlight doc lines).1
          = (l.tokenizeLines lines .root).map (·.tokens) := by
  refine ⟨h.ofFileName?_eq, h.ofFirstLine?_eq, fun name hname => ?_,
    fun fileName firstLine name hname hon => ?_⟩
  · obtain ⟨l, hl⟩ := h.exists_detected hname
    exact Registry.mem_names_iff.mpr (by rw [hl]; rfl)
  · obtain ⟨l, hl⟩ : ∃ l, w.registry.get? name = some l := by
      refine h.exists_detected ?_
      rw [Option.orElse_eq_or, Option.or_eq_some_iff] at hname
      rcases hname with hname | ⟨-, hname⟩
      · obtain ⟨path, -, hpath⟩ := Option.bind_eq_some_iff.mp hname
        exact Or.inl ⟨path, hpath⟩
      · obtain ⟨line, -, hline⟩ := Option.bind_eq_some_iff.mp hname
        exact Or.inr ⟨line, hline⟩
    exact ⟨l, (h.get?_eq name).symm.trans hl,
      fun doc lines => highlight_setLanguage hon hname hl lines⟩

/-- A language that claims an extension and an interpreter of the shell language. -/
def claimant : Language :=
  { Language.named "Fish" with extensions := [['S', 'H']], interpreters := [['s', 'h']] }

/-- A language in the place of the shell language, with another extension. -/
def successor : Language := { Language.named "Shell" with extensions := [['x']] }

/-- Of what the first definition of the shell language listed, some goes to the claimant. The rest
stays with the name, and so goes to the second definition. -/
theorem detection_successor :
    let w := (start.addLanguage claimant).addLanguage successor
    History w [shell, claimant, successor]
      ∧ w.registry.ofFileName? "a.sh".toList = some "Fish"
      ∧ w.registry.ofFirstLine? "#!/bin/sh".toList = some "Fish"
      ∧ w.registry.ofFileName? "a.KSH".toList = some "Shell" ∧ "Shell" ∈ w.registry.names
      ∧ ((w.setLanguage 0 (some "a.KSH".toList) none).highlight 0 [['i', 'f']]).1
        = (successor.tokenizeLines [['i', 'f']] .root).map (·.tokens) := by
  intro w
  have h : History w [shell, claimant, successor] := (History.start.add claimant).add successor
  obtain ⟨hfile, hline, hnames, hdocument⟩ := h.detection
  have hksh : w.registry.ofFileName? "a.KSH".toList = some "Shell" :=
    (hfile "a.KSH".toList).trans (by decide +kernel)
  obtain ⟨l, hl, htokens⟩ := hdocument (some "a.KSH".toList) none "Shell"
    (by rw [Option.bind_some, hksh]; rfl) rfl
  refine ⟨h, (hfile _).trans (by decide +kernel), (hline _).trans (by decide +kernel), hksh,
    hnames "Shell" (Or.inl ⟨_, hksh⟩), ?_⟩
  obtain rfl : successor = l := Option.some.inj hl
  exact htokens 0 [['i', 'f']]

end Workspace

end ShellSyntax

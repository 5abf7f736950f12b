import Mathlib.Tactic.Common
import ShellSyntax.Proofs.Registry.History
import ShellSyntax.Proofs.Text.Words

/-!
Which program the first line of a script asks for.

* `IsProgram`: the names that a program can be asked for by;
* `FirstLine.Calls`, `FirstLine.AsksFor`: how a first line is written that asks for a program, by
  its name or through `env`;
* `FirstLine.lastPart_eq_iff`: the last part of a path;
* `FirstLine.find?_words_iff`: the first word of a text that is no option;
* `FirstLine.interpreter?_eq_some_iff`: the program that is found is the one that is asked for;
* `Registry.ofFirstLine?_asksFor`: the language of a script is that of the one known program that
  its first line asks for, if there is one.
-/

namespace ShellSyntax

/-- A name by which a first line can ask for a program: a word that is no path, no option, and not
`env` itself. -/
structure IsProgram (name : Text) : Prop where
  word : name.IsWord
  noPath : '/' ∉ name
  noEnv : name ≠ "env".toList
  noOption : name.head? ≠ some '-'

instance : DecidablePred IsProgram := fun name =>
  decidable_of_iff (name.IsWord ∧ '/' ∉ name ∧ name ≠ "env".toList ∧ name.head? ≠ some '-')
    ⟨fun h => ⟨h.1, h.2.1, h.2.2.1, h.2.2.2⟩, fun h => ⟨h.word, h.noPath, h.noEnv, h.noOption⟩⟩

namespace FirstLine

open Text

/-! ### Lines that ask for a program -/

/-- Nothing, or the way to a folder, which ends in a slash and has no blanks. -/
def IsFolder (path : Text) : Prop :=
  path = [] ∨ (∃ start, path = start ++ ['/']) ∧ Solid path

/-- Any number of words that begin with a hyphen, with blanks behind each. -/
inductive Options : Text → Prop where
  | none : Options []
  | cons {option gap later : Text} (hword : IsWord option) (hhyphen : option.head? = some '-')
      (hne : gap ≠ []) (hgap : AllBlank gap) (hlater : Options later) :
      Options (option ++ (gap ++ later))

/-- How a program is called: by its name, or by `env` with options and its name behind that. -/
inductive Calls (program : Text) : Text → Prop where
  | byName : Calls program program
  | byEnv {gap options : Text} (hne : gap ≠ []) (hgap : AllBlank gap) (hoptions : Options options) :
      Calls program ("env".toList ++ (gap ++ (options ++ program)))

/-- A first line that asks for a program: `#!` with or without blanks behind it, a folder or none,
and the call of the program. Anything may follow behind a blank. -/
def AsksFor (line program : Text) : Prop :=
  ∃ blanks folder call rest, line = ['#', '!'] ++ (blanks ++ (folder ++ (call ++ rest)))
    ∧ AllBlank blanks ∧ IsFolder folder ∧ Calls program call ∧ AtBorder rest

/-! ### Paths -/

/-- The last part of a path. -/
def lastPart (path : Text) : Text := (path.reverse.takeWhile (· ≠ '/')).reverse

lemma lastPart_append {folder name : Text} (hfolder : IsFolder folder) (hname : '/' ∉ name) :
    lastPart (folder ++ name) = name := by
  have hall : ∀ c ∈ name.reverse, decide (c ≠ '/') = true := fun c hc =>
    decide_eq_true fun heq => hname (heq ▸ List.mem_reverse.mp hc)
  rw [lastPart, List.reverse_append, List.takeWhile_append_of_pos hall]
  rcases hfolder with rfl | ⟨⟨start, rfl⟩, -⟩
  · simp
  · simp

/-- A word is a folder and its last part, in which there is no slash. -/
lemma exists_folder {path : Text} (h : Solid path) :
    ∃ folder, path = folder ++ lastPart path ∧ IsFolder folder := by
  have hpath : path
      = (path.reverse.dropWhile (· ≠ '/')).reverse ++ lastPart path := by
    rw [lastPart, ← List.reverse_append, List.takeWhile_append_dropWhile, List.reverse_reverse]
  refine ⟨_, hpath, ?_⟩
  cases hslash : path.reverse.dropWhile (· ≠ '/') with
  | nil => exact Or.inl rfl
  | cons c t =>
      have hc : c = '/' := by
        have hnot := List.head?_dropWhile_not (· ≠ '/') path.reverse
        rw [hslash] at hnot
        simpa using hnot
      refine Or.inr ⟨⟨t.reverse, by rw [List.reverse_cons, hc]⟩, fun d hd => h d ?_⟩
      rw [hpath, hslash]
      exact List.mem_append_left _ hd

/-! ### Options -/

/-- The first word of a text that is no option stands behind options only. -/
lemma find?_words_iff {name t : Text} (hname : IsWord name) (hoption : name.head? ≠ some '-')
    (ht : AtBorder t) :
    t.words.find? (fun w => w.head? ≠ some '-') = some name
      ↔ ∃ gap options rest, t = gap ++ (options ++ (name ++ rest)) ∧ gap ≠ [] ∧ AllBlank gap
        ∧ Options options ∧ AtBorder rest := by
  constructor
  · intro h
    obtain ⟨-, ws, vs, hwords, hws⟩ := List.find?_eq_some_iff_append.mp h
    clear h
    -- the induction is on the words in front of the one that is found, which are options
    induction ws generalizing t with
    | nil =>
        obtain ⟨gap, rest, rfl, hgap, -, hrest, -⟩ := words_eq_cons_iff.mp hwords
        refine ⟨gap, [], rest, rfl, ?_, hgap, .none, hrest⟩
        rintro rfl
        exact hname.not_atBorder ht
    | cons w ws ih =>
        obtain ⟨gap, t, rfl, hgap, hw, ht', hwords⟩ := words_eq_cons_iff.mp hwords
        obtain ⟨hhyphen, hws⟩ := List.forall_mem_cons.mp hws
        obtain ⟨gap', options, rest, rfl, hne', hgap', hoptions, hrest⟩ := ih ht' hwords hws
        refine ⟨gap, w ++ (gap' ++ options), rest, by simp, ?_, hgap,
          .cons hw (by simpa using hhyphen) hne' hgap' hoptions, hrest⟩
        rintro rfl
        exact hw.not_atBorder ht
  · rintro ⟨gap, options, rest, rfl, hne, hgap, hoptions, hrest⟩
    rw [words_blanks hgap]
    clear ht hne
    induction hoptions with
    | none =>
        rw [List.nil_append, words_word hname hrest]
        exact List.find?_cons_of_pos (decide_eq_true hoption)
    | cons hword hhyphen hne hgap hlater ih =>
        rw [List.append_assoc, List.append_assoc, words_word hword (hgap.atBorder_append hne),
          words_blanks hgap, List.find?_cons_of_neg (by simp [hhyphen]), ih]

/-! ### The program that is found -/

/-- The program that is found, by the words of the line behind its mark. -/
lemma interpreter?_append {command path : Text} {arguments : List Text}
    (hwords : command.words = path :: arguments) :
    interpreter? (['#', '!'] ++ command) = if lastPart path = "env".toList
      then arguments.find? (fun w => w.head? ≠ some '-') else some (lastPart path) := by
  have hcommand : afterMark? ['#', '!'] (['#', '!'] ++ command) = some command :=
    afterMark?_eq_some_iff.mpr rfl
  rw [interpreter?, hcommand, Option.bind_some, hwords]
  rfl

/-- The line asks for the program that is found. -/
lemma asksFor_of_interpreter? {line program : Text} (hprogram : IsProgram program)
    (h : interpreter? line = some program) : AsksFor line program := by
  obtain ⟨command, hcommand, hfound⟩ := Option.bind_eq_some_iff.mp h
  obtain rfl := afterMark?_eq_some_iff.mp hcommand
  cases hwords : command.words with
  | nil =>
      rw [hwords] at hfound
      cases hfound
  | cons path arguments =>
      rw [interpreter?_append hwords] at h
      obtain ⟨blanks, rest, rfl, hblanks, hpath, hrest, rfl⟩ := words_eq_cons_iff.mp hwords
      obtain ⟨folder, hfolder, hisFolder⟩ := exists_folder hpath.solid
      -- behind `env` the program is looked for among its arguments
      split_ifs at h with henv
      · obtain ⟨gap, options, rest', rfl, hne, hgap, hoptions, hrest'⟩ :=
          (find?_words_iff hprogram.word hprogram.noOption hrest).mp h
        rw [henv] at hfolder
        exact ⟨blanks, folder, _, rest', by simp [hfolder], hblanks, hisFolder,
          .byEnv hne hgap hoptions, hrest'⟩
      · rw [Option.some.inj h] at hfolder
        exact ⟨blanks, folder, program, rest, by simp [hfolder], hblanks, hisFolder, .byName,
          hrest⟩

/-- The program that the line asks for is found. -/
lemma interpreter?_of_asksFor {line program : Text} (hprogram : IsProgram program)
    (h : AsksFor line program) : interpreter? line = some program := by
  obtain ⟨blanks, folder, call, rest, rfl, hblanks, hfolder, hcall, hrest⟩ := h
  have hsolid : Solid folder := by
    rcases hfolder with rfl | ⟨-, hsolid⟩
    · exact fun c hc => absurd hc List.not_mem_nil
    · exact hsolid
  -- the line is cut into words as it was put together
  cases hcall with
  | byName =>
      have hwords : words (blanks ++ (folder ++ (program ++ rest)))
          = (folder ++ program) :: words rest := by
        rw [words_blanks hblanks, ← List.append_assoc,
          words_word (isWord_append hsolid hprogram.word) hrest]
      rw [interpreter?_append hwords, lastPart_append hfolder hprogram.noPath,
        if_neg hprogram.noEnv]
  | @byEnv gap options hne hgap hoptions =>
      have henv : IsWord "env".toList := by decide
      have hborder : AtBorder (gap ++ (options ++ (program ++ rest))) :=
        hgap.atBorder_append hne
      have hwords : words (blanks ++ (folder ++ (("env".toList
            ++ (gap ++ (options ++ program))) ++ rest)))
          = (folder ++ "env".toList) :: words (gap ++ (options ++ (program ++ rest))) := by
        rw [words_blanks hblanks, ← words_word (isWord_append hsolid henv) hborder]
        simp only [List.append_assoc]
      rw [interpreter?_append hwords, lastPart_append hfolder (by decide), if_pos rfl]
      exact (find?_words_iff hprogram.word hprogram.noOption hborder).mpr
        ⟨gap, options, rest, rfl, hne, hgap, hoptions, hrest⟩

/-- The program that is found is the one that the line asks for. -/
lemma interpreter?_eq_some_iff {line program : Text} (hprogram : IsProgram program) :
    interpreter? line = some program ↔ AsksFor line program :=
  ⟨asksFor_of_interpreter? hprogram, interpreter?_of_asksFor hprogram⟩

end FirstLine

namespace Registry

open FirstLine (AsksFor Calls Options interpreter?_eq_some_iff)

/-- **The language of a script is that of the program its first line asks for**, in a registry whose
interpreters have names by which a program can be asked for. A line asks for one of them at most. If
it asks for none, no language is found. -/
theorem ofFirstLine?_asksFor {r : Registry} (h : ∀ i ∈ r.interpreters, IsProgram i) (line : Text) :
    (∀ i ∈ r.interpreters, (interpreter? line = some i ↔ AsksFor line i)
      ∧ (AsksFor line i → r.ofFirstLine? line = r.interpreters[i]?))
    ∧ (∀ name, r.ofFirstLine? line = some name
      ↔ ∃ i, r.interpreters[i]? = some name ∧ AsksFor line i)
    ∧ (r.ofFirstLine? line = none ↔ ∀ i ∈ r.interpreters, ¬AsksFor line i) := by
  have hasks : ∀ i ∈ r.interpreters, (interpreter? line = some i ↔ AsksFor line i) :=
    fun i hi => interpreter?_eq_some_iff (h i hi)
  have hmem : ∀ i, i ∈ r.interpreters ↔ ∃ name, r.interpreters[i]? = some name := fun i => by
    rw [← Std.TreeMap.isSome_getElem?_iff_mem, Option.isSome_iff_exists]
  have hfound : ∀ name, r.ofFirstLine? line = some name
      ↔ ∃ i, r.interpreters[i]? = some name ∧ AsksFor line i := by
    intro name
    rw [ofFirstLine?, Option.bind_eq_some_iff]
    refine exists_congr fun i => ?_
    rw [and_comm]
    exact and_congr_right fun hi => hasks i ((hmem i).mpr ⟨name, hi⟩)
  refine ⟨fun i hi => ⟨hasks i hi, fun hline => ?_⟩, hfound, ?_⟩
  · rw [ofFirstLine?, (hasks i hi).mpr hline, Option.bind_some]
  · rw [Option.eq_none_iff_forall_ne_some]
    constructor
    · intro hnone i hi hline
      obtain ⟨name, hname⟩ := (hmem i).mp hi
      exact hnone name ((hfound name).mpr ⟨i, hname, hline⟩)
    · intro hnone name hname
      obtain ⟨i, hi, hline⟩ := (hfound name).mp hname
      exact hnone i ((hmem i).mpr ⟨name, hi⟩) hline

/-- An interpreter that is asked for through `env`, with two options, and has an argument itself. -/
theorem ofFirstLine?_asksFor_env :
    let r := Registry.empty.add shell
    let line : Text := "#! /usr/bin/env -i\t-S zsh\u2003-e".toList
    (∀ i ∈ r.interpreters, IsProgram i) ∧ AsksFor line "zsh".toList
      ∧ r.ofFirstLine? line = some "Shell" := by
  intro r line
  have hlisted : ∀ i, r.interpreters[i]? = if shell.isRunBy i then some "Shell" else none :=
    interpreters_add Registry.empty shell
  have hprograms : ∀ i ∈ shell.interpreters, IsProgram i := by decide
  have hknown : ∀ i ∈ r.interpreters, IsProgram i := by
    intro i hi
    rw [← Std.TreeMap.isSome_getElem?_iff_mem, hlisted] at hi
    by_cases hrun : shell.isRunBy i = true
    · obtain ⟨j, hj, heq⟩ := List.any_eq_true.mp hrun
      obtain rfl : j = i := of_decide_eq_true heq
      exact hprograms j hj
    · rw [if_neg hrun] at hi
      cases hi
  have hoptions : Options "-i\t-S ".toList :=
    @Options.cons "-i".toList ['\t'] "-S ".toList (by decide) rfl (by decide) (by decide) <|
      @Options.cons "-S".toList [' '] [] (by decide) rfl (by decide) (by decide) .none
  have hcall : Calls "zsh".toList "env -i\t-S zsh".toList :=
    @Calls.byEnv _ [' '] "-i\t-S ".toList (by decide) (by decide) hoptions
  have hline : AsksFor line "zsh".toList :=
    ⟨[' '], "/usr/bin/".toList, _, "\u2003-e".toList, rfl, by decide,
      Or.inr ⟨⟨"/usr/bin".toList, rfl⟩, by decide⟩, hcall, by decide⟩
  obtain ⟨-, hfound, -⟩ := ofFirstLine?_asksFor hknown line
  exact ⟨hknown, hline, (hfound "Shell").mpr ⟨_, hlisted _, hline⟩⟩

end Registry

end ShellSyntax

import Mathlib.Data.List.TakeWhile
import Mathlib.Tactic.Common
import ShellSyntax.Text.Blank

/-!
The words of a text, and what stands around them.

* `Text.Solid`, `Text.AllBlank`: texts without blanks, and texts of blanks only;
* `Text.IsWord`, `Text.AtBorder`: a word has characters, none of which is blank; behind it the text
  ends or goes on with a blank;
* `Text.words_append`: where a text is cut at a blank, its words are those of both parts;
* `Text.words_eq_cons_iff`: the first word of a text, and the text behind it;
* `Text.IsRun`: the longest stretches without a blank. `Text.mem_words_iff`: these are the words;
* `Text.afterMark?_eq_some_iff`: what follows a mark.
-/

namespace ShellSyntax

namespace Text

/-- A text without blanks. -/
def Solid (t : Text) : Prop := ∀ c ∈ t, isBlank c = false

/-- A text that has characters, none of which is blank. -/
structure IsWord (w : Text) : Prop where
  nonempty : w ≠ []
  solid : Solid w

/-- A text of blanks only. -/
def AllBlank (t : Text) : Prop := ∀ c ∈ t, isBlank c = true

/-- A text that begins with a blank, or has no characters. -/
def AtBorder (t : Text) : Prop := ∀ c ∈ t.head?, isBlank c = true

instance : DecidablePred Solid := fun t => List.decidableBAll (isBlank · = false) t

instance : DecidablePred IsWord := fun w =>
  decidable_of_iff (w ≠ [] ∧ Solid w) ⟨fun h => ⟨h.1, h.2⟩, fun h => ⟨h.nonempty, h.solid⟩⟩

instance : DecidablePred AllBlank := fun t => List.decidableBAll (isBlank · = true) t

instance : DecidablePred AtBorder := fun t =>
  decidable_of_iff (AllBlank t.head?.toList) (by simp [AllBlank, AtBorder])

variable {t u w blanks rest : Text} {c : Char} {ws : List Text}

lemma atBorder_cons : AtBorder (c :: t) ↔ isBlank c = true := by simp [AtBorder]

/-- What stands in front of the first other character is blank. -/
lemma AllBlank.atBorder_append (h : AllBlank blanks) (hne : blanks ≠ []) :
    AtBorder (blanks ++ t) := by
  obtain ⟨c, blanks, rfl⟩ := List.exists_cons_of_ne_nil hne
  exact atBorder_cons.mpr (h c List.mem_cons_self)

lemma AtBorder.append (ht : AtBorder t) (hu : AtBorder u) : AtBorder (t ++ u) := by
  cases t with
  | nil => exact hu
  | cons c t => exact atBorder_cons.mpr (atBorder_cons.mp ht)

/-- A word is not at the border of another. -/
lemma IsWord.not_atBorder (h : IsWord w) : ¬AtBorder (w ++ t) := by
  obtain ⟨c, w, rfl⟩ := List.exists_cons_of_ne_nil h.nonempty
  intro hborder
  exact Bool.false_ne_true ((h.solid c List.mem_cons_self).symm.trans (atBorder_cons.mp hborder))

lemma isWord_append (ht : Solid t) (hw : IsWord w) : IsWord (t ++ w) where
  nonempty := List.append_ne_nil_of_right_ne_nil t hw.nonempty
  solid c hc := (List.mem_append.mp hc).elim (ht c) (hw.solid c)

/-! ### Words -/

/-- A blank in front of a text belongs to no word. -/
lemma words_cons_of_blank (hc : isBlank c = true) (t : Text) : words (c :: t) = words t :=
  if_pos hc

/-- A character in front of a blank is a word of its own. -/
lemma words_cons_of_atBorder (hc : isBlank c = false) (ht : AtBorder t) :
    words (c :: t) = [c] :: words t := by
  refine (if_neg (Bool.eq_false_iff.mp hc)).trans ?_
  cases t with
  | nil => rfl
  | cons d t =>
      cases words (d :: t) with
      | nil => rfl
      | cons w ws => exact if_pos (atBorder_cons.mp ht)

/-- A character in front of a word belongs to it. -/
lemma words_cons_cons {d : Char} (hc : isBlank c = false) (hd : isBlank d = false)
    (h : words (d :: t) = w :: ws) : words (c :: d :: t) = (c :: w) :: ws := by
  refine (if_neg (Bool.eq_false_iff.mp hc)).trans ?_
  rw [h]
  exact if_neg (Bool.eq_false_iff.mp hd)

lemma words_blanks (h : AllBlank blanks) (t : Text) : words (blanks ++ t) = words t := by
  induction blanks with
  | nil => rfl
  | cons c blanks ih =>
      obtain ⟨hc, hblanks⟩ := List.forall_mem_cons.mp h
      rw [List.cons_append, words_cons_of_blank hc, ih hblanks]

/-- A word at the start of a text, behind which there is no more of it, is the first of its
words. -/
lemma words_word (hw : IsWord w) (hrest : AtBorder rest) : words (w ++ rest) = w :: words rest := by
  obtain ⟨hne, hsolid⟩ := hw
  induction w with
  | nil => exact absurd rfl hne
  | cons c w ih =>
      obtain ⟨hc, hw⟩ := List.forall_mem_cons.mp hsolid
      cases w with
      | nil => exact words_cons_of_atBorder hc hrest
      | cons d w =>
          have hd := (List.forall_mem_cons.mp hw).1
          exact words_cons_cons hc hd (ih (List.cons_ne_nil d w) hw)

/-- What comes first in a text: blanks, and then a word, unless the text ends. -/
lemma exists_word (t : Text) : AllBlank t
    ∨ ∃ blanks w rest, t = blanks ++ (w ++ rest) ∧ AllBlank blanks ∧ IsWord w ∧ AtBorder rest := by
  have hblanks : AllBlank (t.takeWhile isBlank) := fun c hc => List.mem_takeWhile_imp hc
  have ht := (List.takeWhile_append_dropWhile (p := isBlank) (l := t)).symm
  cases hbehind : t.dropWhile isBlank with
  | nil =>
      rw [hbehind, List.append_nil] at ht
      exact Or.inl (ht ▸ hblanks)
  | cons c u =>
      have hc : isBlank c = false := by
        have h := List.head?_dropWhile_not isBlank t
        rw [hbehind] at h
        exact h
      refine Or.inr ⟨_, (c :: u).takeWhile (!isBlank ·), (c :: u).dropWhile (!isBlank ·), ?_,
        hblanks, ⟨?_, fun d hd => ?_⟩, fun d hd => ?_⟩
      · rw [List.takeWhile_append_dropWhile, ← hbehind]
        exact ht
      · rw [List.takeWhile_cons_of_pos (by rw [hc]; rfl)]
        exact List.cons_ne_nil _ _
      · have h := List.mem_takeWhile_imp (p := (!isBlank ·)) hd
        exact Bool.not_inj h
      · have h := List.head?_dropWhile_not (!isBlank ·) (c :: u)
        rw [Option.mem_def.mp hd] at h
        exact Bool.not_inj h

lemma words_eq_nil_iff : words t = [] ↔ AllBlank t := by
  constructor
  · intro h
    refine (exists_word t).resolve_right ?_
    rintro ⟨blanks, w, rest, rfl, hblanks, hw, hrest⟩
    rw [words_blanks hblanks, words_word hw hrest] at h
    cases h
  · intro h
    have hnil := words_blanks h []
    rwa [List.append_nil] at hnil

/-- The first word of a text stands behind blanks, and the other words are those of the text behind
it. -/
lemma words_eq_cons_iff : words t = w :: ws ↔ ∃ blanks rest, t = blanks ++ (w ++ rest)
    ∧ AllBlank blanks ∧ IsWord w ∧ AtBorder rest ∧ words rest = ws := by
  constructor
  · intro h
    rcases exists_word t with hnone | ⟨blanks, w', rest, rfl, hblanks, hw, hrest⟩
    · rw [words_eq_nil_iff.mpr hnone] at h
      cases h
    · rw [words_blanks hblanks, words_word hw hrest] at h
      obtain ⟨rfl, rfl⟩ := List.cons.inj h
      exact ⟨blanks, rest, rfl, hblanks, hw, hrest, rfl⟩
  · rintro ⟨blanks, rest, rfl, hblanks, hw, hrest, rfl⟩
    rw [words_blanks hblanks, words_word hw hrest]

/-- Where a text is cut at a blank, its words are those of both parts. -/
lemma words_append (t : Text) (hu : AtBorder u) : words (t ++ u) = words t ++ words u := by
  induction hwords : words t generalizing t with
  | nil => rw [words_blanks (words_eq_nil_iff.mp hwords), List.nil_append]
  | cons w ws ih =>
      obtain ⟨blanks, rest, rfl, hblanks, hw, hrest, hws⟩ := words_eq_cons_iff.mp hwords
      calc words (blanks ++ (w ++ rest) ++ u) = words (w ++ (rest ++ u)) := by
            rw [List.append_assoc, List.append_assoc, words_blanks hblanks]
        _ = w :: words (rest ++ u) := words_word hw (hrest.append hu)
        _ = w :: ws ++ words u := by rw [ih rest hws, List.cons_append]

/-! ### Runs -/

/-- A stretch of a text without a blank that cannot be made longer: on either side of it the text
ends, or there is a blank. -/
def IsRun (w t : Text) : Prop :=
  ∃ before after, t = before ++ (w ++ after) ∧ IsWord w ∧ AtBorder before.reverse ∧ AtBorder after

/-- In front of a run stand the words of the text in front of it, and behind a run those of the text
behind it. -/
lemma words_run {before after : Text} (hw : IsWord w) (hbefore : AtBorder before.reverse)
    (hafter : AtBorder after) :
    words (before ++ (w ++ after)) = words before ++ w :: words after := by
  rcases List.eq_nil_or_concat before with rfl | ⟨before, c, rfl⟩
  · exact words_word hw hafter
  · have hc : isBlank c = true := by
      rw [List.concat_eq_append, List.reverse_append] at hbefore
      exact atBorder_cons.mp hbefore
    have hcut : ∀ t, words (before ++ c :: t) = words before ++ words t := fun t => by
      rw [words_append before (atBorder_cons.mpr hc), words_cons_of_blank hc]
    have hlast : words (before ++ [c]) = words before := by
      rw [hcut, words, List.append_nil]
    rw [List.concat_eq_append]
    calc words (before ++ [c] ++ (w ++ after)) = words before ++ words (w ++ after) := by
          rw [List.append_assoc, List.singleton_append, hcut]
      _ = words (before ++ [c]) ++ w :: words after := by rw [hlast, words_word hw hafter]

/-- The words of a text are the longest stretches of it without a blank. -/
lemma mem_words_iff : w ∈ words t ↔ IsRun w t := by
  constructor
  · intro h
    obtain ⟨ws, vs, hws⟩ := List.append_of_mem h
    induction ws generalizing t with
    | nil =>
        obtain ⟨blanks, rest, rfl, hblanks, hw, hrest, -⟩ := words_eq_cons_iff.mp hws
        refine ⟨blanks, rest, rfl, hw, fun c hc => ?_, hrest⟩
        exact hblanks c (List.mem_reverse.mp (List.mem_of_mem_head? hc))
    | cons v ws ih =>
        obtain ⟨blanks, rest, rfl, -, hv, hrest, hwords⟩ := words_eq_cons_iff.mp hws
        have hmem : w ∈ words rest := hwords ▸ List.mem_append_right ws List.mem_cons_self
        obtain ⟨before, after, rfl, hw, hbefore, hafter⟩ := ih hmem hwords
        refine ⟨blanks ++ (v ++ before), after, by simp, hw, ?_, hafter⟩
        -- between two words there is a blank
        have hne : before ≠ [] := by
          rintro rfl
          exact hw.not_atBorder hrest
        obtain ⟨c, u, hu⟩ := List.exists_cons_of_ne_nil (List.reverse_ne_nil_iff.mpr hne)
        rw [List.reverse_append, List.reverse_append, hu]
        exact atBorder_cons.mpr (atBorder_cons.mp (hu ▸ hbefore))
  · rintro ⟨before, after, rfl, hw, hbefore, hafter⟩
    rw [words_run hw hbefore hafter]
    exact List.mem_append_right _ List.mem_cons_self

/-! ### Marks -/

/-- What follows a mark. -/
lemma afterMark?_eq_some_iff {mark : Text} : afterMark? mark t = some rest ↔ t = mark ++ rest := by
  rw [afterMark?]
  constructor
  · intro h
    split_ifs at h with hmark
    obtain ⟨u, rfl⟩ := List.isPrefixOf_iff_prefix.mp hmark
    rw [List.drop_left, Option.some_inj] at h
    rw [h]
  · rintro rfl
    rw [if_pos (List.isPrefixOf_iff_prefix.mpr (List.prefix_append mark rest)), List.drop_left]

lemma afterMark?_eq_none_iff {mark : Text} : afterMark? mark t = none ↔ ¬mark <+: t := by
  rw [afterMark?, ← List.isPrefixOf_iff_prefix]
  split_ifs with h <;> simp [h]

end Text

end ShellSyntax

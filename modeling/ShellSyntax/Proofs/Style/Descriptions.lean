import Mathlib.Data.List.Induction
import Mathlib.Tactic.Common
import ShellSyntax.Proofs.Text.Words
import ShellSyntax.Style

/-!
What the words of a style's description mean.

* `Attribute`: what a word can ask for besides colours; `Style.backgroundOf?`: the colour that a
  word asks for behind the text;
* `Style.Meaningful`: the words that have a meaning. `Style.exists_applyWord?_iff`: these are the
  words that can be applied, and `Style.Follows` says what they change;
* `Style.Describes`: the style that a list of words describes, where the last word for a colour
  wins. `Style.describes_foldlM`: applying the words one after the other leads to it;
* `Style.parse_describes`: a description is read just if all its words have a meaning, and names the
  style that they describe. Nothing else about it counts.
-/

namespace ShellSyntax

/-! ### Words -/

/-- What a word can ask for besides colours. -/
inductive Attribute where
  | bold
  | italic
  | underline
  | reverse
deriving DecidableEq

/-- The word for an attribute. -/
def Attribute.word : Attribute → Text
  | bold => "bold".toList
  | italic => "italic".toList
  | underline => "underline".toList
  | reverse => "reverse".toList

namespace Style

/-- Whether a style has an attribute. -/
def has (s : Style) : Attribute → Bool
  | .bold => s.bold
  | .italic => s.italic
  | .underline => s.underline
  | .reverse => s.reverse

/-- The mark of the words for the background. -/
def backgroundMark : Text := "on_".toList

/-- The colour that a word asks for behind the text. -/
def backgroundOf? (word : Text) : Option Color :=
  (Text.afterMark? backgroundMark word).bind Color.ofName?

/-- The words that have a meaning: attributes, colours, and colours for the background. -/
inductive Meaningful : Text → Prop where
  | forAttribute (a : Attribute) : Meaningful a.word
  | forText {name : Text} {c : Color} (h : Color.ofName? name = some c) : Meaningful name
  | forBackground {name : Text} {c : Color} (h : Color.ofName? name = some c) :
      Meaningful (backgroundMark ++ name)

/-- The style `t` is what a word makes of the style `s`. -/
structure Follows (word : Text) (s t : Style) : Prop where
  attributes : ∀ a, t.has a = true ↔ s.has a = true ∨ a.word = word
  foreground : t.foreground = (Color.ofName? word).getD s.foreground
  background : t.background = (backgroundOf? word).getD s.background

variable {s t : Style} {w name : Text} {c : Color}

/-! ### One word -/

/-- No colour has the name of an attribute. -/
lemma colors_attribute (a : Attribute) :
    Color.ofName? a.word = none ∧ backgroundOf? a.word = none := by
  cases a <;> decide

/-- No colour has a name that begins like the words for the background. -/
lemma ofName?_background (name : Text) : Color.ofName? (backgroundMark ++ name) = none := by
  have hnames : ∀ n ∈ Color.names, ¬backgroundMark <+: n.1.toList := by decide
  rw [Color.ofName?, Option.map_eq_none_iff, List.find?_eq_none]
  intro n hn heq
  rw [decide_eq_true_eq] at heq
  exact hnames n hn (heq ▸ List.prefix_append _ _)

lemma backgroundOf?_background (name : Text) :
    backgroundOf? (backgroundMark ++ name) = Color.ofName? name := by
  rw [backgroundOf?, Text.afterMark?_eq_some_iff.mpr rfl, Option.bind_some]

lemma attribute_ne_background (a : Attribute) (name : Text) : a.word ≠ backgroundMark ++ name := by
  have hword : ¬backgroundMark <+: a.word := by cases a <;> decide
  intro heq
  exact hword (heq ▸ List.prefix_append _ _)

/-- The word for an attribute gives it to the style. -/
lemma applyWord?_attribute (s : Style) (a : Attribute) :
    ∃ t, applyWord? s a.word = some t ∧ Follows a.word s t := by
  obtain ⟨hforeground, hbackground⟩ := colors_attribute a
  have hinj : ∀ b : Attribute, b.word = a.word ↔ b = a := fun b => by
    cases a <;> cases b <;> decide
  cases a with
  | bold | italic | underline | reverse =>
      refine ⟨_, rfl, fun b => ?_, by rw [hforeground]; rfl, by rw [hbackground]; rfl⟩
      rw [hinj]
      cases b <;> simp [has]

/-- Any other word is for a colour. -/
lemma applyWord?_of_ne (h : ∀ a : Attribute, w ≠ a.word) (s : Style) :
    applyWord? s w = match Text.afterMark? backgroundMark w with
      | some name => (Color.ofName? name).map fun c => { s with background := c }
      | none => (Color.ofName? w).map fun c => { s with foreground := c } :=
  (if_neg (h .bold)).trans <| (if_neg (h .italic)).trans <| (if_neg (h .underline)).trans <|
    if_neg (h .reverse)

/-- A word for the background changes it, if the colour is known. -/
lemma applyWord?_background (s : Style) (name : Text) :
    applyWord? s (backgroundMark ++ name)
      = (Color.ofName? name).map fun c => { s with background := c } := by
  rw [applyWord?_of_ne fun a => (attribute_ne_background a name).symm,
    Text.afterMark?_eq_some_iff.mpr rfl]

/-- A word without the mark changes the colour of the text, if it is known. -/
lemma applyWord?_foreground (h : ∀ a : Attribute, w ≠ a.word)
    (hmark : Text.afterMark? backgroundMark w = none) (s : Style) :
    applyWord? s w = (Color.ofName? w).map fun c => { s with foreground := c } := by
  rw [applyWord?_of_ne h, hmark]

/-- A word can be applied just if it has a meaning. -/
lemma exists_applyWord?_iff : (∃ t, applyWord? s w = some t) ↔ Meaningful w := by
  constructor
  · rintro ⟨t, h⟩
    by_cases hattribute : ∃ a : Attribute, w = a.word
    · obtain ⟨a, rfl⟩ := hattribute
      exact .forAttribute a
    · rw [not_exists] at hattribute
      cases hmark : Text.afterMark? backgroundMark w with
      | none =>
          rw [applyWord?_foreground hattribute hmark] at h
          obtain ⟨c, hc, -⟩ := Option.map_eq_some_iff.mp h
          exact .forText hc
      | some name =>
          obtain rfl := Text.afterMark?_eq_some_iff.mp hmark
          rw [applyWord?_background] at h
          obtain ⟨c, hc, -⟩ := Option.map_eq_some_iff.mp h
          exact .forBackground hc
  · intro h
    cases h with
    | forAttribute a =>
        obtain ⟨t, ht, -⟩ := applyWord?_attribute s a
        exact ⟨t, ht⟩
    | forText h =>
        have hattribute : ∀ a : Attribute, w ≠ a.word := by
          rintro a rfl
          rw [(colors_attribute a).1] at h
          cases h
        -- no name of a color begins with the mark of a background
        have hmark : Text.afterMark? backgroundMark w = none := by
          refine Option.eq_none_iff_forall_ne_some.mpr fun name hname => ?_
          obtain rfl := Text.afterMark?_eq_some_iff.mp hname
          rw [ofName?_background] at h
          cases h
        rw [applyWord?_foreground hattribute hmark, h]
        exact ⟨_, rfl⟩
    | forBackground h =>
        rw [applyWord?_background, h]
        exact ⟨_, rfl⟩

/-- What a word changes when it is applied. -/
lemma follows_applyWord? (h : applyWord? s w = some t) : Follows w s t := by
  by_cases hattribute : ∃ a : Attribute, w = a.word
  · obtain ⟨a, rfl⟩ := hattribute
    obtain ⟨t', ht', hfollows⟩ := applyWord?_attribute s a
    obtain rfl := Option.some.inj (h.symm.trans ht')
    exact hfollows
  · rw [not_exists] at hattribute
    -- a word for a colour leaves the attributes as they are
    have hkeeps : ∀ {u : Style}, u.has = s.has →
        ∀ a : Attribute, u.has a = true ↔ s.has a = true ∨ a.word = w := by
      intro u hu a
      rw [hu, or_iff_left fun heq => hattribute a heq.symm]
    have hhas : ∀ c : Color, ({ s with foreground := c } : Style).has = s.has
        ∧ ({ s with background := c } : Style).has = s.has := fun c =>
      ⟨funext fun a => by cases a <;> rfl, funext fun a => by cases a <;> rfl⟩
    cases hmark : Text.afterMark? backgroundMark w with
    | none =>
        rw [applyWord?_foreground hattribute hmark] at h
        obtain ⟨c, hc, rfl⟩ := Option.map_eq_some_iff.mp h
        exact ⟨hkeeps (hhas c).1, by rw [hc]; rfl, by rw [backgroundOf?, hmark]; rfl⟩
    | some name =>
        obtain rfl := Text.afterMark?_eq_some_iff.mp hmark
        rw [applyWord?_background] at h
        obtain ⟨c, hc, rfl⟩ := Option.map_eq_some_iff.mp h
        exact ⟨hkeeps (hhas c).2, by rw [ofName?_background]; rfl,
          by rw [backgroundOf?_background, hc]; rfl⟩

/-! ### All words -/

/-- The last of some words that asks for a colour. -/
def lastWord? (colorOf? : Text → Option Color) (ws : List Text) : Option Text :=
  ws.reverse.find? fun w => (colorOf? w).isSome

/-- The colour that the last such word asks for, or else that of the terminal. -/
def lastColor (colorOf? : Text → Option Color) (ws : List Text) : Color :=
  ((lastWord? colorOf? ws).bind colorOf?).getD .standard

lemma lastColor_concat (colorOf? : Text → Option Color) (ws : List Text) (w : Text) :
    lastColor colorOf? (ws ++ [w]) = (colorOf? w).getD (lastColor colorOf? ws) := by
  rw [lastColor, lastWord?, List.reverse_concat, List.find?_cons]
  cases hw : colorOf? w with
  | none => rfl
  | some c =>
      rw [Option.isSome_some, Option.bind_some, hw]
      rfl

/-- The style that words describe: it has the attributes that are among them, and the colours of the
last words for colours. -/
structure Describes (ws : List Text) (s : Style) : Prop where
  attributes : ∀ a, s.has a = true ↔ a.word ∈ ws
  foreground : s.foreground = lastColor Color.ofName? ws
  background : s.background = lastColor backgroundOf? ws

lemma describes_nil : Describes [] plain :=
  ⟨fun a => by cases a <;> simp [has, plain], rfl, rfl⟩

/-- One more word is added to those that describe a style as it is applied. -/
lemma Describes.concat {ws : List Text} (h : Describes ws s) (hw : Follows w s t) :
    Describes (ws ++ [w]) t where
  attributes a := by
    rw [hw.attributes, h.attributes, List.mem_append, List.mem_singleton]
  foreground := by rw [hw.foreground, h.foreground, lastColor_concat]
  background := by rw [hw.background, h.background, lastColor_concat]

/-- Words can be applied one after the other just if all of them have a meaning. -/
lemma exists_foldlM_iff (ws : List Text) :
    (∃ t, ws.foldlM applyWord? s = some t) ↔ ∀ w ∈ ws, Meaningful w := by
  induction ws generalizing s with
  | nil => simp
  | cons w ws ih =>
      rw [List.forall_mem_cons, ← exists_applyWord?_iff (s := s), List.foldlM_cons]
      constructor
      · rintro ⟨t, h⟩
        obtain ⟨u, hu, ht⟩ := Option.bind_eq_some_iff.mp h
        exact ⟨⟨u, hu⟩, ih.mp ⟨t, ht⟩⟩
      · rintro ⟨⟨u, hu⟩, hws⟩
        obtain ⟨t, ht⟩ := ih.mpr hws
        exact ⟨t, Option.bind_eq_some_iff.mpr ⟨u, hu, ht⟩⟩

/-- Then they lead to the style that they describe. -/
lemma describes_foldlM {ws : List Text} (h : ws.foldlM applyWord? plain = some s) :
    Describes ws s := by
  induction ws using List.reverseRecOn generalizing s with
  | nil =>
      obtain rfl := Option.some.inj h
      exact describes_nil
  | append_singleton ws w ih =>
      rw [List.foldlM_append] at h
      obtain ⟨u, hu, h⟩ := Option.bind_eq_some_iff.mp h
      obtain ⟨t, ht, h⟩ := Option.bind_eq_some_iff.mp h
      obtain rfl := Option.some.inj h
      exact (ih hu).concat (follows_applyWord? ht)

/-- Words with the same attributes and the same last words for colours describe one style. -/
lemma Describes.unique {ws vs : List Text} (hs : Describes ws s) (ht : Describes vs t)
    (hattributes : ∀ a : Attribute, a.word ∈ ws ↔ a.word ∈ vs)
    (hforeground : lastWord? Color.ofName? ws = lastWord? Color.ofName? vs)
    (hbackground : lastWord? backgroundOf? ws = lastWord? backgroundOf? vs) : s = t := by
  have hhas : ∀ a, s.has a = t.has a := fun a => by
    rw [Bool.eq_iff_iff, hs.attributes, ht.attributes, hattributes]
  have hf : s.foreground = t.foreground := by
    rw [hs.foreground, ht.foreground, lastColor, lastColor, hforeground]
  have hb : s.background = t.background := by
    rw [hs.background, ht.background, lastColor, lastColor, hbackground]
  cases s
  cases t
  exact Style.mk.injEq .. ▸ ⟨hf, hb, hhas .bold, hhas .italic, hhas .underline, hhas .reverse⟩

/-! ### Descriptions -/

lemma parse_eq_ok_iff {description : Text} : parse description = .ok s
    ↔ (description.words.map Text.lowercase).foldlM applyWord? plain = some s := by
  rw [parse]
  split
  · rename_i t ht
    rw [ht, Except.ok.injEq, Option.some_inj]
  · rename_i hnone
    simp [hnone]

/-- **What a description means.** It is read just if each of its words, in small letters, has a
meaning; or else it is reported as it is. The words are the longest stretches without blanks. The
style that is read has the attributes for which there is a word, and the colours of the last words
for the text and for the background. So the order of words, their repetition, their case and the
blanks between them do not count otherwise. -/
theorem parse_describes (description : Text) :
    let words := fun d : Text => d.words.map Text.lowercase
    ((∃ s, parse description = .ok s) ↔ ∀ w : Text, w.IsRun description → Meaningful w.lowercase)
    ∧ (parse description = .error ⟨description⟩
      ↔ ∃ w : Text, w.IsRun description ∧ ¬Meaningful w.lowercase)
    ∧ (∀ s, parse description = .ok s → Describes (words description) s)
    ∧ ∀ other s t, parse description = .ok s → parse other = .ok t →
      (∀ a : Attribute, a.word ∈ words description ↔ a.word ∈ words other) →
      lastWord? Color.ofName? (words description) = lastWord? Color.ofName? (words other) →
      lastWord? backgroundOf? (words description) = lastWord? backgroundOf? (words other) →
      s = t := by
  intro words
  have hread : (∃ s, parse description = .ok s)
      ↔ ∀ w : Text, w.IsRun description → Meaningful w.lowercase := by
    simp only [parse_eq_ok_iff, exists_foldlM_iff, List.forall_mem_map, Text.mem_words_iff]
  have hdescribes : ∀ d s, parse d = .ok s → Describes (words d) s :=
    fun d s h => describes_foldlM (parse_eq_ok_iff.mp h)
  refine ⟨hread, ?_, hdescribes description, fun other s t hs ht => ?_⟩
  · have herror : parse description = .error ⟨description⟩ ↔ ¬∃ s, parse description = .ok s := by
      rw [parse]
      split <;> simp
    simp only [herror, hread, not_forall, exists_prop]
  · exact (hdescribes description s hs).unique (hdescribes other t ht)

/-- Two descriptions of the same look. -/
theorem parse_describes_respelled :
    let one : Text := "red BOLD  on_blue grey".toList
    let other : Text := "on_white\tbold Grey bold on_Blue".toList
    ∃ s, parse one = .ok s ∧ parse other = .ok s ∧ s.foreground = .brightBlack
      ∧ s.background = .blue ∧ s.has .bold = true ∧ s.has .italic = false := by
  intro one other
  obtain ⟨s, hs⟩ : ∃ s, parse one = .ok s := ⟨_, rfl⟩
  obtain ⟨t, ht⟩ : ∃ t, parse other = .ok t := ⟨_, rfl⟩
  obtain ⟨-, -, hdescribes, hsame⟩ := parse_describes one
  have hwords := hdescribes s hs
  obtain rfl : s = t := hsame other s t hs ht (fun a => by cases a <;> decide) (by decide)
    (by decide)
  refine ⟨s, hs, ht, hwords.foreground.trans (by decide), hwords.background.trans (by decide),
    (hwords.attributes .bold).mpr (by decide), ?_⟩
  exact Bool.eq_false_iff.mpr fun h => absurd ((hwords.attributes .italic).mp h) (by decide)

end Style

end ShellSyntax

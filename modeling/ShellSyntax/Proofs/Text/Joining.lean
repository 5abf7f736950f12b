import Mathlib.Algebra.Ring.Nat
import Mathlib.Data.List.Chain
import Mathlib.Tactic.Common
import ShellSyntax.Proofs.Pattern.CharSet
import ShellSyntax.Proofs.Text.Clipping

/-!
When the widths of texts that stand one after the other add up.

* `Sign.owed`: how many columns of the text behind may be taken back by the characters in front of
  it. `owed_addChar`: never more are taken back than are there. `Text.owed_measure`: so no text
  measures less than nothing;
* `Text.measureFrom`, `Text.measure_append`: a text is measured in front of another one by what that
  begins with;
* `Text.Detached`: the last character of a text does not join with what stands behind it.
  `Text.width_append`: then widths add up;
* `Text.width_flatten`: the widths of several texts add up, if each is detached from the next.
-/

namespace ShellSyntax

/-! ### Columns that are taken back -/

/-- How many columns of the text that begins with a sign may be taken back by the characters in
front of it. -/
def Sign.owed : Sign → ℤ
  | .khmer | .tifinaghJoiner | .joinedIndicator | .joinedOdd => 1
  | _ => 0

lemma owed_nonneg (s : Sign) : 0 ≤ s.owed := by
  unfold Sign.owed
  split <;> decide

lemma owed_le_one (s : Sign) : s.owed ≤ 1 := by
  unfold Sign.owed
  split <;> decide

lemma owed_join (s : Sign) : s.join.owed = s.owed := by
  cases s <;> rfl

/-- Letters that may be taken back take columns themselves. -/
lemma owed_signOf_le (c : Char) : (signOf c).owed ≤ columns c := by
  by_cases hkhmer : khmerLetters.contains c = true
  · have hapart : (⟨khmerLetters⟩ : CharSet).Apart ⟨Unicode.zeroWidth⟩ := by decide +kernel
    have hzero : Unicode.zeroWidth.contains c = false := hapart.mem_eq_false hkhmer
    have hcolumns : 1 ≤ columns c := by
      rw [columns, hzero, if_neg Bool.false_ne_true]
      split_ifs <;> decide
    have hle := owed_le_one (signOf c)
    omega
  · have hite : ∀ {p : Prop} [Decidable p] {s s' : Sign}, s.owed = 0 → s'.owed = 0 →
        (if p then s else s').owed = 0 := by
      intro p _ s s' hs hs'
      split
      · exact hs
      · exact hs'
    have hnone : (signOf c).owed = 0 := by
      simp only [signOf, hkhmer, Bool.false_eq_true, if_false]
      repeat' first
        | rfl
        | apply hite
    rw [hnone]
    exact Int.natCast_nonneg _

lemma owed_alone (c : Char) : (alone c).2.sign.owed ≤ (alone c).1 := by
  rw [alone]
  split_ifs
  · exact Int.le_refl 0
  · exact Int.le_refl 0
  · exact owed_signOf_le c

/-- A character takes back no more than is owed. -/
def Affords (s : Sign) (joined : Option (ℤ × Sign)) : Prop :=
  ∀ found ∈ joined, found.2.owed ≤ s.owed + found.1

lemma affords_none (s : Sign) : Affords s none := fun _ h => nomatch h

lemma affords_some {s s' : Sign} {w : ℤ} (h : s'.owed ≤ s.owed + w) :
    Affords s (some (w, s')) := fun found hfound => by
  obtain rfl := Option.some.inj hfound
  exact h

lemma affords_ite {s : Sign} {p : Prop} [Decidable p] {joined joined' : Option (ℤ × Sign)}
    (h : Affords s joined) (h' : Affords s joined') :
    Affords s (if p then joined else joined') := by
  split
  · exact h
  · exact h'

lemma affords_joinSign? (c : Char) (s : Sign) : Affords s (joinSign? c s) := by
  unfold joinSign?
  split
  all_goals repeat' first
    | exact affords_none _
    | exact affords_some (by simp [Sign.owed])
    | apply affords_ite

lemma affords_joinThrough? (c : Char) (s : Sign) : Affords s (joinThrough? c s) := by
  rw [joinThrough?]
  refine affords_ite (affords_none s) (affords_ite (affords_some ?_) (affords_ite (affords_some ?_)
    (affords_none s)))
  · have hjoin : s.join.owed = s.owed + 0 := by rw [owed_join, Int.add_zero]
    exact Int.le_of_eq hjoin
  · exact Int.le_of_eq (Int.add_zero _).symm

/-- Selectors leave what is owed as it is, or waive it. -/
lemma owed_selected (a : Ahead) :
    a.selectPicture.sign.owed ≤ a.sign.owed ∧ a.selectText.sign.owed ≤ a.sign.owed
      ∧ a.dropPicture.sign.owed ≤ a.sign.owed ∧ a.dropText.sign.owed ≤ a.sign.owed := by
  have hite : ∀ {p : Prop} [Decidable p] {b b' : Ahead}, b.sign = a.sign → b'.sign = .other →
      (if p then b else b').sign.owed ≤ a.sign.owed := by
    intro p _ b b' hb hb'
    split
    · exact Int.le_of_eq (congrArg Sign.owed hb)
    · rw [hb']
      exact owed_nonneg _
  exact ⟨hite rfl rfl, hite rfl rfl, hite rfl rfl, hite rfl rfl⟩

lemma owed_alone_le (c : Char) (a : Ahead) :
    (alone c).2.sign.owed ≤ a.sign.owed + (alone c).1 := by
  have halone := owed_alone c
  have hnonneg := owed_nonneg a.sign
  omega

lemma affords_join (c : Char) (s : Sign) :
    Affords s ((joinThrough? c s).orElse fun _ => joinSign? c s) := by
  cases hthrough : joinThrough? c s with
  | none => exact affords_joinSign? c s
  | some found =>
      have hfound := affords_joinThrough? c s
      rwa [hthrough] at hfound

lemma owed_joinAhead (c : Char) (a : Ahead) :
    (joinAhead c a).2.sign.owed ≤ a.sign.owed + (joinAhead c a).1 := by
  obtain ⟨hpicture, htext, -, hdrop⟩ := owed_selected a
  have hnonneg := owed_nonneg a.sign
  rw [joinAhead]
  split_ifs
  · exact owed_alone_le c a
  · rwa [Int.add_zero]
  · rwa [Int.add_zero]
  · show (0 : ℤ) ≤ a.sign.owed + 1
    omega
  · simp only
    split
    · rename_i w s hjoined
      have hle : s.owed ≤ a.dropText.sign.owed + w := affords_join c a.dropText.sign _ hjoined
      show s.owed ≤ a.sign.owed + w
      omega
    · exact owed_alone_le c a
  · simp only
    split
    · rename_i w s hjoined
      exact affords_join c a.sign _ hjoined
    · exact owed_alone_le c a

/-- A character in front of a text takes back no more columns than are owed. -/
lemma owed_addChar (c : Char) (a : Ahead) :
    (addChar c a).2.sign.owed ≤ a.sign.owed + (addChar c a).1 := by
  obtain ⟨-, -, hdrop, -⟩ := owed_selected a
  have hnonneg := owed_nonneg a.sign
  -- without the selector for pictures no more is owed
  have hselected : (if a.asPicture then a.dropPicture else a).sign.owed ≤ a.sign.owed := by
    split
    · exact hdrop
    · exact Int.le_refl _
  rw [addChar]
  split
  · show (0 : ℤ) ≤ a.sign.owed + _
    split <;> omega
  · dsimp only
    generalize (if a.asPicture then a.dropPicture else a) = b at hselected ⊢
    split_ifs
    · rwa [Int.add_zero]
    · rwa [Int.add_zero]
    · show (0 : ℤ) ≤ a.sign.owed + 1
      omega
    · have hjoin := owed_joinAhead c b
      omega

namespace Text

/-- A text takes at least the columns that may be taken back. -/
lemma owed_measure (t : Text) : (measure t).2.sign.owed ≤ (measure t).1 := by
  induction t with
  | nil => exact Int.le_refl 0
  | cons c t ih =>
      have hchar := owed_addChar c (measure t).2
      show (addChar c (measure t).2).2.sign.owed ≤ (addChar c (measure t).2).1 + (measure t).1
      omega

lemma measure_nonneg (t : Text) : 0 ≤ (measure t).1 :=
  Int.le_trans (owed_nonneg _) (owed_measure t)

/-! ### Texts in front of each other -/

/-- The columns of a text in front of something, with what it begins with. -/
def measureFrom (a : Ahead) : Text → ℤ × Ahead
  | [] => (0, a)
  | c :: t =>
    let later := measureFrom a t
    let first := addChar c later.2
    (first.1 + later.1, first.2)

variable {t u : Text} {ts : List Text}

lemma measure_append (t u : Text) :
    measure (t ++ u)
      = ((measureFrom (measure u).2 t).1 + (measure u).1, (measureFrom (measure u).2 t).2) := by
  induction t with
  | nil => simp [measureFrom]
  | cons c t ih =>
      rw [List.cons_append, measure, ih, measureFrom]
      simp only [Int.add_assoc]

/-- The last character of a text does not join with the text behind it. -/
def Detached (t u : Text) : Prop := ∀ c ∈ t.getLast?, addChar c (measure u).2 = addChar c .nothing

instance : DecidableRel Detached := fun t _ => Option.decidableForallMem t.getLast?

/-- A text that is detached from what follows measures as it does alone. -/
lemma measureFrom_of_detached (h : Detached t u) (hne : t ≠ []) :
    measureFrom (measure u).2 t = measure t := by
  induction t with
  | nil => exact absurd rfl hne
  | cons c t ih =>
      rcases List.eq_nil_or_concat' t with rfl | ⟨_, _, ht⟩
      · simp only [measureFrom, measure, h c rfl]
      · have hne' : t ≠ [] := by simp [ht]
        have hlast : Detached t u := fun d hd => h d (by rwa [List.getLast?_cons_of_ne_nil hne'])
        simp only [measureFrom, measure, ih hlast hne']

/-- The widths of two texts add up if the first is detached from the second. -/
lemma width_append (h : Detached t u) : (t ++ u).width = t.width + u.width := by
  by_cases hne : t = []
  · rw [hne]
    exact (Nat.zero_add _).symm
  · have ht := measure_nonneg t
    have hu := measure_nonneg u
    rw [width, measure_append, measureFrom_of_detached h hne, width, width]
    omega

/-- The widths of texts add up if each is detached from the next. -/
lemma width_flatten (hne : ∀ t ∈ ts, t ≠ []) (h : ts.IsChain Detached) :
    width ts.flatten = (ts.map width).sum
      ∧ ∀ t ∈ ts.head?, (measure ts.flatten).2 = (measure t).2 := by
  induction ts with
  | nil => exact ⟨rfl, fun t ht => nomatch ht⟩
  | cons t ts ih =>
      obtain ⟨ht, hne⟩ := List.forall_mem_cons.mp hne
      obtain ⟨hnext, hchain⟩ := List.isChain_cons.mp h
      obtain ⟨hwidth, hhead⟩ := ih hne hchain
      have hdetached : Detached t ts.flatten := by
        intro c hc
        cases ts with
        | nil => rfl
        | cons u us =>
            rw [hhead u rfl]
            exact hnext u rfl c hc
      rw [List.flatten_cons, width_append hdetached, hwidth, List.map_cons, List.sum_cons]
      refine ⟨rfl, fun u hu => ?_⟩
      obtain rfl := Option.some.inj hu
      rw [measure_append, measureFrom_of_detached hdetached ht]

end Text

end ShellSyntax

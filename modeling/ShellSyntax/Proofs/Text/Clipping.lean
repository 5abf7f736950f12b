import Mathlib.Data.List.Chain
import Mathlib.Data.List.Infix
import Mathlib.Tactic.Common
import ShellSyntax.Text.Width

/-!
How much of a text fits into a number of columns.

* `ownColumns`, `Text.ownWidth`: the columns of the characters of a text, each by itself;
* `Text.prefix_clip`, `Text.clip_append_of_le`, `Text.clip_append_of_lt`: clipping keeps the longest
  start of a text whose characters fit, and goes on behind a text just if all of it fits;
* `Text.Fills`: a start of a text for which no other one that fits is wider. `Text.Fills.append`:
  texts that fit are filled up by what follows them;
* `Text.Additive`: every stretch of a text is as wide as its characters. `Text.Separate`,
  `Text.Separate.additive`: so is a text no character of which joins with the one behind it.
-/

namespace ShellSyntax

/-- The columns of a character by itself, where control characters count for one. -/
def ownColumns (c : Char) : ℕ := (charWidth? c).getD 1

namespace Text

/-- The columns of the characters of a text, each by itself. -/
def ownWidth : Text → ℕ
  | [] => 0
  | c :: t => ownColumns c + ownWidth t

variable {room : ℕ} {t u v : Text}

@[simp] lemma ownWidth_nil : ownWidth [] = 0 := rfl

@[simp] lemma ownWidth_cons (c : Char) (t : Text) :
    ownWidth (c :: t) = ownColumns c + t.ownWidth := rfl

@[simp] lemma ownWidth_append (t u : Text) : (t ++ u).ownWidth = t.ownWidth + u.ownWidth := by
  induction t with
  | nil => simp
  | cons c t ih => rw [List.cons_append, ownWidth_cons, ih, ownWidth_cons, Nat.add_assoc]

lemma ownWidth_mono (h : u <+: t) : u.ownWidth ≤ t.ownWidth := by
  obtain ⟨v, rfl⟩ := h
  rw [ownWidth_append]
  exact Nat.le_add_right _ _

/-! ### Clipping -/

lemma clip_cons (room : ℕ) (c : Char) (t : Text) :
    clip room (c :: t)
      = if room < ownColumns c then [] else c :: t.clip (room - ownColumns c) := rfl

lemma clip_isPrefix (room : ℕ) (t : Text) : t.clip room <+: t := by
  induction t generalizing room with
  | nil => exact List.prefix_refl _
  | cons c t ih =>
      rw [clip_cons]
      split
      · exact List.nil_prefix
      · exact (List.prefix_cons_inj c).mpr (ih _)

lemma ownWidth_clip_le (room : ℕ) (t : Text) : (t.clip room).ownWidth ≤ room := by
  induction t generalizing room with
  | nil => exact Nat.zero_le _
  | cons c t ih =>
      rw [clip_cons]
      split
      · exact Nat.zero_le _
      · have hrest := ih (room - ownColumns c)
        rw [ownWidth_cons]
        omega

/-- Clipping keeps every start whose characters fit. -/
lemma prefix_clip (h : v <+: t) (hfits : v.ownWidth ≤ room) : v <+: t.clip room := by
  induction t generalizing room v with
  | nil => exact h
  | cons c t ih =>
      rcases List.prefix_cons_iff.mp h with rfl | ⟨v, rfl, hv⟩
      · exact List.nil_prefix
      · rw [ownWidth_cons] at hfits
        rw [clip_cons, if_neg (by omega), List.prefix_cons_inj]
        exact ih hv (by omega)

lemma clip_eq_self (h : t.ownWidth ≤ room) : t.clip room = t :=
  (clip_isPrefix room t).eq_of_length_le (prefix_clip (List.prefix_refl t) h).length_le

lemma clip_append_of_le (h : t.ownWidth ≤ room) (u : Text) :
    (t ++ u).clip room = t ++ u.clip (room - t.ownWidth) := by
  induction t generalizing room with
  | nil => rfl
  | cons c t ih =>
      rw [ownWidth_cons] at h
      rw [List.cons_append, clip_cons, if_neg (by omega), ih (by omega), ownWidth_cons,
        Nat.sub_add_eq, List.cons_append]

lemma clip_append_of_lt (h : room < t.ownWidth) (u : Text) : (t ++ u).clip room = t.clip room := by
  induction t generalizing room with
  | nil => exact absurd h (Nat.not_lt_zero _)
  | cons c t ih =>
      rw [List.cons_append, clip_cons, clip_cons]
      split
      · rfl
      · rw [ownWidth_cons] at h
        rw [ih (by omega)]

/-- Nothing fits into no columns if the text does not begin with a mark that takes none. -/
lemma clip_zero (h : ∀ c ∈ t.head?, 0 < ownColumns c) : t.clip 0 = [] := by
  cases t with
  | nil => rfl
  | cons c t => rw [clip_cons, if_pos (h c rfl)]

/-! ### Texts that fill a width -/

/-- The text `u` is a start of `t` whose characters fit, and no other such start is wider. -/
structure Fills (room : ℕ) (t u : Text) : Prop where
  isPrefix : u <+: t
  fits : u.ownWidth ≤ room
  widest : ∀ v : Text, v <+: t → v.ownWidth ≤ room → v.ownWidth ≤ u.ownWidth

lemma fills_clip (room : ℕ) (t : Text) : Fills room t (t.clip room) where
  isPrefix := clip_isPrefix room t
  fits := ownWidth_clip_le room t
  widest _ hv hfits := ownWidth_mono (prefix_clip hv hfits)

lemma fills_nil (t : Text) : Fills 0 t [] := ⟨List.nil_prefix, Nat.zero_le _, fun _ _ h => h⟩

lemma Fills.append (h : Fills (room - t.ownWidth) u v) (ht : t.ownWidth ≤ room) :
    Fills room (t ++ u) (t ++ v) where
  isPrefix := (List.prefix_append_right_inj t).mpr h.isPrefix
  fits := by
    have hfits := h.fits
    rw [ownWidth_append]
    omega
  widest w hw hfits := by
    rw [ownWidth_append]
    rcases List.prefix_or_prefix_of_prefix hw (List.prefix_append t u) with hle | ⟨w, rfl⟩
    · exact (ownWidth_mono hle).trans (Nat.le_add_right _ _)
    · rw [ownWidth_append] at hfits ⊢
      have hwidest := h.widest w ((List.prefix_append_right_inj t).mp hw) (by omega)
      omega

/-! ### Texts in which widths add up -/

/-- Every stretch of a text is as wide as its characters. -/
def Additive (t : Text) : Prop := ∀ u : Text, u <:+: t → u.width = u.ownWidth

/-- No character of a text joins with the one behind it, and there are no selectors and line
feeds. -/
structure Separate (t : Text) : Prop where
  plain : ∀ c ∈ t, c ≠ '\n' ∧ c.toNat ≠ 0xFE0E ∧ c.toNat ≠ 0xFE0F
  apart : t.IsChain fun c d => joinThrough? c (signOf d) = none ∧ joinSign? c (signOf d) = none

lemma Separate.of_infix (h : t.Separate) (hu : u <:+: t) : u.Separate :=
  ⟨fun c hc => h.plain c (hu.subset hc), h.apart.infix hu⟩

lemma contains_eq_false_of_lt {rs : Unicode.Ranges} {n : ℕ} (h : ∀ r ∈ rs, n < r.1) {c : Char}
    (hc : c.toNat ≤ n) : rs.contains c = false := by
  refine Bool.eq_false_iff.mpr fun hmem => ?_
  obtain ⟨r, hr, hle, -⟩ := Unicode.Ranges.contains_eq_true_iff.mp hmem
  have hlt := h r hr
  omega

/-- The characters in front of the first mark take one column each. -/
lemma ownColumns_of_le {c : Char} (h : c.toNat ≤ 0xA0) : ownColumns c = 1 := by
  have hzero : Unicode.zeroWidth.contains c = false :=
    contains_eq_false_of_lt (by decide +kernel) h
  have hdouble : Unicode.doubleWidth.contains c = false :=
    contains_eq_false_of_lt (by decide +kernel) h
  have hthree : c ≠ '\u17d8' := by
    rintro rfl
    revert h
    decide
  have hcolumns : columns c = 1 := by simp [columns, hzero, hdouble, hthree]
  rw [ownColumns, charWidth?, hcolumns]
  split_ifs <;> rfl

lemma ownColumns_of_lt {c : Char} (h : 0xA0 < c.toNat) : ownColumns c = columns c := by
  rw [ownColumns, charWidth?, if_neg (by omega)]
  rfl

lemma signOf_ne_lineFeed (c : Char) : signOf c ≠ .lineFeed := by
  have hite : ∀ {p : Prop} [Decidable p] {s s' : Sign}, s ≠ .lineFeed → s' ≠ .lineFeed →
      (if p then s else s') ≠ .lineFeed := by
    intro p _ s s' hs hs'
    split
    · exact hs
    · exact hs'
  rw [signOf]
  repeat' first
    | exact Sign.noConfusion
    | apply hite

/-- A character that does not join with what stands behind it adds its own columns. -/
lemma addChar_eq {c : Char} {a : Ahead} (hplain : c ≠ '\n' ∧ c.toNat ≠ 0xFE0E ∧ c.toNat ≠ 0xFE0F)
    (ha : a = .nothing ∨ ∃ d, a = .of (signOf d) ∧ joinThrough? c (signOf d) = none
      ∧ joinSign? c (signOf d) = none) :
    (addChar c a).1 = ownColumns c
      ∧ ((addChar c a).2 = .nothing ∨ (addChar c a).2 = .of (signOf c)) := by
  obtain ⟨hfeed, htext, hpicture⟩ := hplain
  have halone : alone c = (↑(columns c), .of (signOf c)) := by
    rw [alone, if_neg hpicture, if_neg htext]
  have hselectors : a.asPicture = false ∧ a.asText = false ∧ a ≠ .of .lineFeed := by
    rcases ha with rfl | ⟨d, rfl, -⟩
    · exact ⟨rfl, rfl, by decide⟩
    · exact ⟨rfl, rfl, fun h => signOf_ne_lineFeed d (congrArg Ahead.sign h)⟩
  obtain ⟨hasPicture, hasText, hlineFeed⟩ := hselectors
  have hjoin : joinAhead c a = alone c := by
    rw [joinAhead]
    rcases ha with rfl | ⟨d, rfl, hthrough, hsign⟩
    · exact if_pos rfl
    · split
      · rfl
      · simp [Ahead.of, hthrough, hsign]
  by_cases hlow : c.toNat ≤ 0xA0
  · have hadd : addChar c a = (1, .nothing) := by
      simp only [addChar, hasPicture, hfeed, hlineFeed, hlow, Bool.false_and, Bool.false_eq_true,
        and_false, if_false, if_true]
    rw [hadd, ownColumns_of_le hlow]
    exact ⟨rfl, Or.inl rfl⟩
  · have hadd : addChar c a = (↑(columns c), .of (signOf c)) := by
      simp only [addChar, hasPicture, hfeed, hlineFeed, hlow, hjoin, halone, Bool.false_and,
        Bool.false_eq_true, and_false, if_false]
    rw [hadd, ownColumns_of_lt (by omega)]
    exact ⟨rfl, Or.inr rfl⟩

lemma Separate.measure_eq (h : t.Separate) :
    (measure t).1 = t.ownWidth
      ∧ ((measure t).2 = .nothing ∨ ∃ d ∈ t.head?, (measure t).2 = .of (signOf d)) := by
  induction t with
  | nil => exact ⟨rfl, Or.inl rfl⟩
  | cons c t ih =>
      obtain ⟨hwidth, hahead⟩ := ih (h.of_infix (List.suffix_cons c t).isInfix)
      have hbehind : (measure t).2 = .nothing ∨ ∃ d, (measure t).2 = .of (signOf d)
          ∧ joinThrough? c (signOf d) = none ∧ joinSign? c (signOf d) = none := by
        refine hahead.imp_right fun ⟨d, hd, hsign⟩ => ⟨d, hsign, ?_⟩
        exact (List.isChain_cons.mp h.apart).1 d hd
      obtain ⟨hcolumns, hsign⟩ := addChar_eq (h.plain c List.mem_cons_self) hbehind
      refine ⟨?_, hsign.imp_right fun hsign => ⟨c, rfl, hsign⟩⟩
      rw [measure, ownWidth_cons, Int.natCast_add, ← hwidth, ← hcolumns]

/-- The widths of characters that do not join add up. -/
lemma Separate.additive (h : t.Separate) : t.Additive := fun u hu => by
  rw [width, (h.of_infix hu).measure_eq.1]
  rfl

end Text

end ShellSyntax

import Mathlib.Data.List.Basic
import Mathlib.Tactic.Common
import ShellSyntax.Text.Cursor
import ShellSyntax.Text.Lowercase

/-!
Texts without the capital letters of ASCII.

* `capitals`: these letters; `toLower_eq_self_or_mem`: only they have another small letter;
* `Text.asciiLower`, `Cursor.asciiLower`: a text, and a place, with small letters instead. No
  character changes its size, so that places keep their offsets, and `Cursor.textTo_asciiLower`
  finds the same text between them but for these letters;
* `Text.SameLetters`: two texts differ in the case of letters of ASCII only;
* `Text.lowercase_asciiLower`: the lowercase form of a text is that of the text with small letters.
-/

namespace ShellSyntax

/-! ### Capital letters -/

/-- The capital letters of ASCII. -/
def capitals : List Char := (List.range 26).map fun n => Char.ofNat (0x41 + n)

/-- Only capital letters have another small letter. -/
lemma toLower_eq_self_or_mem (c : Char) : c.toLower = c ∨ c ∈ capitals := by
  by_cases h : c.val ≥ 'A'.val ∧ c.val ≤ 'Z'.val
  · have hfirst : 0x41 ≤ c.toNat := UInt32.le_iff_toNat_le.mp h.1
    have hlast : c.toNat ≤ 0x5A := UInt32.le_iff_toNat_le.mp h.2
    refine .inr (List.mem_map.mpr ⟨c.toNat - 0x41, List.mem_range.mpr (by omega), ?_⟩)
    rw [Nat.add_sub_cancel' hfirst, Char.ofNat_toNat]
  · exact .inl (dif_neg h)

/-- What does not tell capital letters from small ones tells no character from its small letter. -/
lemma apply_toLower {α : Type} [BEq α] [LawfulBEq α] {f : Char → α}
    (h : capitals.all fun c => f c.toLower == f c) (c : Char) : f c.toLower = f c := by
  rcases toLower_eq_self_or_mem c with heq | hc
  · rw [heq]
  · exact beq_iff_eq.mp (List.all_eq_true.mp h c hc)

lemma utf8Size_toLower (c : Char) : c.toLower.utf8Size = c.utf8Size :=
  apply_toLower (by decide) c

/-! ### Texts and places -/

namespace Text

/-- The text with small letters for the capital letters of ASCII. -/
def asciiLower (t : Text) : Text := t.map Char.toLower

@[simp] lemma asciiLower_cons (c : Char) (t : Text) :
    asciiLower (c :: t) = c.toLower :: asciiLower t := rfl

lemma length_asciiLower (t : Text) : t.asciiLower.length = t.length := List.length_map _

/-- Two texts differ in the case of letters of ASCII only. -/
def SameLetters (t u : Text) : Prop := t.asciiLower = u.asciiLower

instance (t u : Text) : Decidable (SameLetters t u) :=
  inferInstanceAs (Decidable (t.asciiLower = u.asciiLower))

end Text

namespace Cursor

/-- The place in the text with small letters. -/
def asciiLower (c : Cursor) : Cursor := ⟨c.offset, c.rest.asciiLower⟩

lemma rest_asciiLower {c : Cursor} {x : Char} {rest : Text} (h : c.rest = x :: rest) :
    c.asciiLower.rest = x.toLower :: rest.asciiLower := by
  rw [asciiLower, h, Text.asciiLower_cons]

lemma asciiLower_past (c : Cursor) (x : Char) (rest : Text) :
    (c.past x rest).asciiLower = c.asciiLower.past x.toLower rest.asciiLower := by
  rw [past, past, asciiLower, utf8Size_toLower]
  rfl

lemma textWithin_asciiLower (t : Text) (n : ℕ) :
    textWithin t.asciiLower n = (textWithin t n).asciiLower := by
  induction t generalizing n with
  | nil => rfl
  | cons c t ih =>
      rw [Text.asciiLower_cons, textWithin, textWithin, utf8Size_toLower, ih]
      split <;> rfl

/-- Between the same places stands the same text but for capital letters. -/
lemma textTo_asciiLower (a b : Cursor) :
    a.asciiLower.textTo b.asciiLower = (a.textTo b).asciiLower :=
  textWithin_asciiLower a.rest _

end Cursor

/-! ### Lowercase forms -/

/-- A class that has no letters of ASCII in any of its ranges does not tell them apart. -/
lemma Unicode.Ranges.contains_toLower {rs : Unicode.Ranges}
    (h : rs.all fun r => decide (r.2 < 0x41 ∨ 0x5A < r.1 ∧ r.2 < 0x61 ∨ 0x7A < r.1)) (c : Char) :
    rs.contains c.toLower = rs.contains c := by
  have hletters : capitals.all fun c => decide (0x41 ≤ c.toNat ∧ c.toNat ≤ 0x5A
      ∧ 0x61 ≤ c.toLower.toNat ∧ c.toLower.toNat ≤ 0x7A) := by decide
  have hnone {d : Char} (hd : 0x41 ≤ d.toNat ∧ d.toNat ≤ 0x5A ∨ 0x61 ≤ d.toNat ∧ d.toNat ≤ 0x7A) :
      rs.contains d = false := by
    refine Bool.eq_false_iff.mpr fun hmem => ?_
    obtain ⟨r, hr, hfirst, hlast⟩ := contains_eq_true_iff.mp hmem
    have hapart := of_decide_eq_true (List.all_eq_true.mp h r hr)
    omega
  rcases toLower_eq_self_or_mem c with heq | hc
  · rw [heq]
  · obtain ⟨hfirst, hlast, hfirst', hlast'⟩ := of_decide_eq_true (List.all_eq_true.mp hletters c hc)
    rw [hnone (.inl ⟨hfirst, hlast⟩), hnone (.inr ⟨hfirst', hlast'⟩)]

lemma Unicode.startsCased_cons (c : Char) (t : Text) :
    startsCased (c :: t)
      = if caseIgnorable.contains c then startsCased t else casedLetters.contains c := by
  rw [startsCased, startsCased, List.dropWhile_cons]
  by_cases hc : caseIgnorable.contains c = true
  · rw [if_pos hc, if_pos hc]
  · rw [if_neg hc, if_neg hc]

namespace Text

lemma startsCased_asciiLower (t : Text) :
    Unicode.startsCased t.asciiLower = Unicode.startsCased t := by
  have hignorable : ∀ c : Char,
      Unicode.caseIgnorable.contains c.toLower = Unicode.caseIgnorable.contains c :=
    Unicode.Ranges.contains_toLower (by decide +kernel)
  have hcased : ∀ c : Char,
      Unicode.casedLetters.contains c.toLower = Unicode.casedLetters.contains c :=
    apply_toLower (by decide +kernel)
  induction t with
  | nil => rfl
  | cons c t ih =>
      rw [asciiLower_cons, Unicode.startsCased_cons, Unicode.startsCased_cons, hignorable, hcased,
        ih]

lemma lowercaseAfter_asciiLower (before t : Text) :
    lowercaseAfter (asciiLower before) (asciiLower t) = lowercaseAfter before t := by
  have hsigma : ∀ c : Char, decide (c.toLower = '\u03a3') = decide (c = '\u03a3') :=
    apply_toLower (f := fun c => decide (c = '\u03a3')) (by decide)
  have hletter : ∀ c : Char, Unicode.lowercaseLetter c.toLower = Unicode.lowercaseLetter c :=
    apply_toLower (by decide +kernel)
  induction t generalizing before with
  | nil => rfl
  | cons c t ih =>
      have hlater : lowercaseAfter (c.toLower :: asciiLower before) (asciiLower t)
          = lowercaseAfter (c :: before) t := ih (c :: before)
      rw [asciiLower_cons, lowercaseAfter, lowercaseAfter, hlater, hletter,
        startsCased_asciiLower, startsCased_asciiLower]
      simp only [decide_eq_decide.mp (hsigma c)]

/-- The lowercase form of a text does not depend on the case of letters of ASCII. -/
lemma lowercase_asciiLower (t : Text) : t.asciiLower.lowercase = t.lowercase :=
  lowercaseAfter_asciiLower [] t

end Text

end ShellSyntax

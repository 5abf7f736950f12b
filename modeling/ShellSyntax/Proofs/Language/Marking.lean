import Mathlib.Data.List.Basic
import Mathlib.Tactic.Common
import ShellSyntax.Proofs.Language.Run
import ShellSyntax.Proofs.Pattern.CharSet

/-!
Languages that mark one character.

In such a language every character is a token, and those of the one that is marked are keywords. No
line leaves a state behind. The tokens of a text in all of these languages tell what text it is.

* `Language.marking`: the language that marks a character;
* `Language.marks`, `Language.tokenizeLine_marking`, `Language.tokenizeLines_marking`: the tokens of
  a line and of lines in it;
* `Language.exists_marks_ne`: two texts differ in some of these languages.
-/

namespace ShellSyntax

namespace Language

/-- The rule that marks a character. -/
def markingRule (x : Char) : Rule := .anchored "mark" (.one (.single x)) (.fixed .keyword)

/-- The language that marks a character. -/
def marking (x : Char) : Language := (named "marking").setRules .root [markingRule x]

/-- The kind of a character in the language that marks `x`. -/
def markKind (x y : Char) : TokenKind := if y = x then .keyword else .plain

/-- The tokens of a text in the language that marks `x`, from an offset on. -/
def marks (x : Char) : ℕ → Text → List Token
  | _, [] => []
  | offset, y :: rest =>
    .ofSpan ⟨offset, offset + y.utf8Size⟩ (markKind x y) :: marks x (offset + y.utf8Size) rest

variable {x y : Char} {rest : Text} {c : Cursor}

lemma match?_markingRule (hrest : c.rest = y :: rest) :
    (markingRule x).match? c = if y = x then some ⟨c, c.past y rest, []⟩ else none := by
  have happlies : (markingRule x).applies c = true := by
    rw [Rule.applies, hrest]
    rfl
  have hfind : (markingRule x).pattern.find? c
      = if y = x then some ⟨c.past y rest, .none⟩ else none := by
    have hways : (markingRule x).pattern.ways c.offset ⟨c, .none⟩
        = (⟨c, .none⟩ : PatternMatch).take (.single x) := by
      rw [markingRule, Rule.anchored, Pattern.ways, Pattern.ways, if_pos rfl,
        List.flatMap_singleton, Pattern.ways]
    rw [Pattern.find?_eq_head? rfl rfl, hways, PatternMatch.take_cons _ hrest]
    simp only [CharSet.mem_single]
    split <;> rfl
  have hy := y.utf8Size_pos
  rw [Rule.match?, if_pos happlies, hfind]
  split
  · rw [Option.bind_some, if_neg (by show c.offset + y.utf8Size ≠ c.offset; omega)]
    rfl
  · rfl

/-- Each step takes one character. -/
lemma step_marking (hrest : c.rest = y :: rest) :
    (marking x).step .root c y rest
      = ⟨[.ofSpan (c.spanTo (c.past y rest)) (markKind x y)], .root, c.past y rest⟩ := by
  have hfirst : (marking x).firstMatch? .root c
      = ((markingRule x).match? c).map (markingRule x, ·) := by
    show [markingRule x].findSome? _ = _
    rw [List.findSome?_singleton]
    cases (markingRule x).match? c <;> rfl
  rw [match?_markingRule hrest] at hfirst
  rw [markKind]
  split at hfirst
  · rename_i hyx
    rw [step_of_match hfirst, if_pos hyx]
    rfl
  · rename_i hyx
    rw [step_of_none hfirst, if_neg hyx]

lemma tokenizeFrom_marking {fuel : ℕ} (hfuel : c.rest.length ≤ fuel) :
    (marking x).tokenizeFrom fuel .root c = ⟨marks x c.offset c.rest, .root⟩ := by
  induction fuel generalizing c with
  | zero =>
      rw [List.length_eq_zero_iff.mp (Nat.le_zero.mp hfuel)]
      rfl
  | succ fuel ih =>
      cases hrest : c.rest with
      | nil =>
          rw [tokenizeFrom_of_nil _ _ hrest]
          rfl
      | cons y rest =>
          rw [hrest, List.length_cons] at hfuel
          have hlater := ih (c := c.past y rest) (Nat.le_of_succ_le_succ hfuel)
          rw [tokenizeFrom_succ fuel _ hrest, step_marking hrest, hlater]
          rfl

/-- The tokens of a line are its characters. -/
lemma tokenizeLine_marking (x : Char) (line : Text) :
    (marking x).tokenizeLine line .root = ⟨marks x 0 line, .root⟩ :=
  tokenizeFrom_marking (Nat.le_refl _)

lemma tokenizeLines_marking (x : Char) (lines : List Text) :
    (marking x).tokenizeLines lines .root = lines.map fun line => ⟨marks x 0 line, .root⟩ := by
  induction lines with
  | nil => rfl
  | cons line lines ih => rw [tokenizeLines, tokenizeLine_marking, ih, List.map_cons]

/-- Two texts differ in some of these languages. -/
lemma exists_marks_ne {t u : Text} (h : t ≠ u) (offset : ℕ) :
    ∃ x, marks x offset t ≠ marks x offset u := by
  by_contra hall
  simp only [not_exists, ne_eq, not_not] at hall
  refine h ?_
  clear h
  induction t generalizing u offset with
  | nil =>
      cases u with
      | nil => rfl
      | cons z u => cases hall z
  | cons y t ih =>
      cases u with
      | nil => cases hall y
      | cons z u =>
          -- what marks the first character of one text marks that of the other
          obtain ⟨hhead, -⟩ := List.cons.inj (hall y)
          have hkind : TokenKind.keyword = markKind y z := by
            simpa [markKind, Token.ofSpan] using congrArg Token.kind hhead
          obtain rfl : z = y := by
            by_contra hne
            rw [markKind, if_neg hne] at hkind
            cases hkind
          rw [ih _ fun x => (List.cons.inj (hall x)).2]

end Language

end ShellSyntax

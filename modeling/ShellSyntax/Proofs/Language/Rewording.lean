import Mathlib.Data.List.Basic
import Mathlib.Tactic.Common
import ShellSyntax.Proofs.Language.Run

/-!
Languages that share their rules and differ in their words.

* `Language.spans_tokensOf`: where the tokens of a match stand does not depend on the language;
* `Language.run_eq_of_rules`: languages with the same rules go through a line by the same visits,
  put their tokens at the same places, and leave the same state behind;
* `Language.tokensAt_eq_of_rules`: if they have the same brackets as well, they find the same tokens
  at a visit, unless what they find is classified as a word.
-/

namespace ShellSyntax

namespace Language

variable {l l' : Language} {s : LineState} {c : Cursor}

lemma spans_tokensOf (l l' : Language) (r : Rule) (m : RuleMatch) :
    (l.tokensOf r m).map Token.toSpan = (l'.tokensOf r m).map Token.toSpan := by
  cases hclassify : r.classify <;> simp only [tokensOf, hclassify] <;> rfl

lemma tokensOf_eq (hbrackets : l.brackets = l'.brackets) {r : Rule}
    (hword : r.classify ≠ .identifier) (m : RuleMatch) : l.tokensOf r m = l'.tokensOf r m := by
  cases hclassify : r.classify with
  | identifier => exact absurd hclassify hword
  | bracket =>
      have hkind : l.bracketKind = l'.bracketKind := funext fun x => by
        rw [bracketKind, bracketKind, hbrackets]
      simp only [tokensOf, hclassify, hkind]
  | fixed kind | groups kinds => simp only [tokensOf, hclassify]

section SameRules

variable (hrules : l.rules = l'.rules)

include hrules

/-- Languages with the same rules find the same matches. -/
lemma firstMatch?_eq_of_rules (s : LineState) (c : Cursor) :
    l.firstMatch? s c = l'.firstMatch? s c := by
  rw [firstMatch?, firstMatch?, hrules]

/-- So their steps lead to the same place and state, over tokens at the same places. -/
lemma step_eq_of_rules (s : LineState) (c : Cursor) (x : Char) (rest : Text) :
    (l.step s c x rest).state = (l'.step s c x rest).state
      ∧ (l.step s c x rest).next = (l'.step s c x rest).next
      ∧ (l.step s c x rest).tokens.map Token.toSpan
        = (l'.step s c x rest).tokens.map Token.toSpan := by
  have hsame := firstMatch?_eq_of_rules hrules s c
  cases hfound : l'.firstMatch? s c with
  | none =>
      rw [step_of_none hfound, step_of_none (hsame.trans hfound)]
      exact ⟨rfl, rfl, rfl⟩
  | some found =>
      obtain ⟨r, m⟩ := found
      rw [step_of_match hfound, step_of_match (hsame.trans hfound)]
      exact ⟨rfl, rfl, spans_tokensOf l l' r m⟩

/-- From step to step they stay together. -/
lemma run_eq_of_rules (fuel : ℕ) (s : LineState) (c : Cursor) :
    l.visitsFrom fuel s c = l'.visitsFrom fuel s c
      ∧ (l.tokenizeFrom fuel s c).endState = (l'.tokenizeFrom fuel s c).endState
      ∧ (l.tokenizeFrom fuel s c).tokens.map Token.toSpan
        = (l'.tokenizeFrom fuel s c).tokens.map Token.toSpan := by
  induction fuel generalizing s c with
  | zero => exact ⟨rfl, rfl, rfl⟩
  | succ fuel ih =>
      cases hrest : c.rest with
      | nil =>
          rw [visitsFrom_of_nil _ s hrest, visitsFrom_of_nil _ s hrest,
            tokenizeFrom_of_nil _ s hrest, tokenizeFrom_of_nil _ s hrest]
          exact ⟨rfl, rfl, rfl⟩
      | cons x rest =>
          obtain ⟨hstate, hnext, hspans⟩ := step_eq_of_rules hrules s c x rest
          obtain ⟨hvisits, hend, hlater⟩ :=
            ih (l'.step s c x rest).state (l'.step s c x rest).next
          simp only [visitsFrom_succ fuel s hrest, tokenizeFrom_succ fuel s hrest, hstate, hnext,
            List.map_append, hspans]
          exact ⟨by rw [hvisits], hend, by rw [hlater]⟩

/-- What is not classified as a word has the same kind in languages with the same brackets. -/
lemma tokensAt_eq_of_rules (hbrackets : l.brackets = l'.brackets) {v : Visit}
    (hword : ∀ r m, l'.firstMatch? v.state v.place = some (r, m) → r.classify ≠ .identifier) :
    l.tokensAt v = l'.tokensAt v := by
  have hsame := firstMatch?_eq_of_rules hrules v.state v.place
  cases hrest : v.place.rest with
  | nil => rw [tokensAt, tokensAt, hrest]
  | cons x rest =>
      rw [tokensAt_eq hrest, tokensAt_eq hrest]
      cases hfound : l'.firstMatch? v.state v.place with
      | none => rw [step_of_none hfound, step_of_none (hsame.trans hfound)]
      | some found =>
          obtain ⟨r, m⟩ := found
          rw [step_of_match hfound, step_of_match (hsame.trans hfound)]
          exact tokensOf_eq hbrackets (hword r m hfound) m

end SameRules

end Language

end ShellSyntax

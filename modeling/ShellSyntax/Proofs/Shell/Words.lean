import Mathlib.Data.List.Basic
import Mathlib.Tactic.Common
import ShellSyntax.Proofs.Language.Rewording
import ShellSyntax.Proofs.Shell.Rules

/-!
What the user's words change in the tokens of a line.

* `Settings.wordKind`: the kind of a word in the shell language with a user's words;
  `Settings.identifierKind_language`: it is what the language classifies by;
* `Shell.identifierRule`: the only rule that classifies by words;
* `Settings.tokenizeLine_language`: a user's words change the kinds of the tokens that this rule
  finds, and nothing else.
-/

namespace ShellSyntax

namespace Shell

/-- The rule for words. -/
def identifierRule : Rule :=
  .anchored "identifier" (.cat (.one letter) (.star (.one nameChar))) .identifier

/-- It is the only rule that classifies by words. -/
lemma eq_identifierRule (s : State) :
    ∀ r ∈ rules s, r.classify = .identifier → r = identifierRule := by
  cases s <;> decide

end Shell

namespace Settings

/-! ### The kinds of words -/

/-- The kind of a word whose lowercase form is `w`, for a user with words of their own: a keyword of
the shell or of the user, or else a command of the shell or of the user, or else plain text. -/
def wordKind (s : Settings) (w : Text) : TokenKind :=
  if (Shell.keywords.map String.toList ++ s.keywords.map Text.lowercase).contains w then .keyword
  else if (Shell.builtins.map String.toList ++ s.builtins.map Text.lowercase).contains w then
    .builtin
  else .plain

lemma identifierKind_language (s : Settings) (word : Text) :
    s.language.identifierKind word = s.wordKind word.lowercase := by
  rw [Language.identifierKind, wordKind]
  simp only [List.contains_iff_mem]
  rfl

/-- A user without words leaves the words of the shell as they are. -/
lemma identifierKind_shell (word : Text) :
    shell.identifierKind word = default.wordKind word.lowercase := by
  rw [Language.identifierKind, wordKind, default, List.map_nil, List.append_nil, List.append_nil]
  simp only [List.contains_iff_mem]
  rfl

/-! ### The tokens of a line -/

open ShellSyntax.Language in
/-- At a visit that finds a word, its token is all that is found. -/
lemma tokensAt_of_word {l : Language} {v : Visit} {m : RuleMatch}
    (hfound : l.firstMatch? v.state v.place = some (Shell.identifierRule, m)) :
    l.tokensAt v = [.ofSpan m.span (l.identifierKind m.text)] := by
  have hrest : v.place.rest ≠ [] := by
    intro hnil
    have happlies := (Rule.match?_eq_some_iff.mp (firstMatch?_eq_some hfound).2.1).1
    rw [Rule.applies, hnil] at happlies
    cases happlies
  obtain ⟨x, rest, hx⟩ := List.exists_cons_of_ne_nil hrest
  rw [tokensAt_eq hx, step_of_match hfound]
  rfl

/-- **A user's words change nothing but the kinds of words.** Whatever they are, and whatever the
text and the state it begins in, the tokenizer of the language with these words goes through the
line by the same visits as that of the shell language, puts its tokens at the same places and leaves
the same state. At each visit both find the same tokens, unless they find a word. Its kind depends
on its lowercase form: it is a keyword of the shell or of the user, or else a command of either, or
else plain text. -/
theorem tokenizeLine_language (s : Settings) (line : Text) (start : LineState) :
    let found := s.language.tokenizeLine line start
    let usual := shell.tokenizeLine line start
    let visits := shell.visits line start
    found.endState = usual.endState
      ∧ found.tokens.map Token.toSpan = usual.tokens.map Token.toSpan
      ∧ found.tokens = visits.flatMap s.language.tokensAt
      ∧ usual.tokens = visits.flatMap shell.tokensAt
      ∧ ∀ v ∈ visits,
        ((∀ m, shell.firstMatch? v.state v.place ≠ some (Shell.identifierRule, m)) →
          s.language.tokensAt v = shell.tokensAt v)
        ∧ ∀ m, shell.firstMatch? v.state v.place = some (Shell.identifierRule, m) →
          line.slice? m.span = some m.text
            ∧ s.language.tokensAt v = [.ofSpan m.span (s.wordKind m.text.lowercase)]
            ∧ shell.tokensAt v = [.ofSpan m.span (default.wordKind m.text.lowercase)] := by
  have hrules : s.language.rules = shell.rules := rfl
  obtain ⟨hvisits, hend, hspans⟩ :=
    Language.run_eq_of_rules hrules line.length start (.start line)
  refine ⟨hend, hspans, ?_, Language.tokens_tokenizeFrom _ _ _, fun v hv => ⟨fun hnone => ?_, ?_⟩⟩
  · exact (Language.tokens_tokenizeFrom _ _ _).trans (by rw [hvisits]; rfl)
  · -- the classification looks at the user's words for identifiers only
    refine Language.tokensAt_eq_of_rules hrules rfl fun r m hfound hclassify => ?_
    have hr := Shell.eq_identifierRule _ r (Language.firstMatch?_eq_some hfound).1 hclassify
    exact hnone m (hr ▸ hfound)
  · intro m hfound
    have hm := (Language.firstMatch?_eq_some hfound).2.1
    have hplace := (Language.reaches_visitsFrom hv).1
    have hsame := Language.firstMatch?_eq_of_rules hrules v.state v.place
    refine ⟨?_, ?_, ?_⟩
    · rw [RuleMatch.span, RuleMatch.text, Rule.start_match? hm]
      exact hplace.slice? (Rule.reaches_match? hm)
    · rw [tokensAt_of_word (hsame.trans hfound), identifierKind_language]
    · rw [tokensAt_of_word hfound, identifierKind_shell]

end Settings

end ShellSyntax

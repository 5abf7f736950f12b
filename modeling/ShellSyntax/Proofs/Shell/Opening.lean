import Mathlib.Data.List.Basic
import Mathlib.Tactic.Common
import ShellSyntax.Proofs.Shell.OpeningParts

/-!
A line that opens a here-document with a given tag.

* `Shell.openingLine`: the line. `Shell.openingParts?_openingLine`: it is an opening as a whole;
* `Shell.match?_beforeOpening`: no rule that goes before that opening matches there;
* `Shell.firstMatch?_openingLine`: so the line enters a here-document with its tag.
-/

namespace ShellSyntax.Shell

open Pattern

/-- The rules outside of quotes that go before the opening of a here-document. -/
def beforeOpening : List Rule :=
  blankRules ++ [.anchored "identifier" (cat (one letter) (star (one nameChar))) .identifier]
    ++ quoteRules ++ parameterRules ++ openingRules.take 1

lemma exists_rootRules_eq : ∃ behind, rootRules = beforeOpening ++ heredocOpening :: behind :=
  ⟨_, rfl⟩

/-- A line that opens a here-document with a given tag. -/
def openingLine (w : Text) : Text := '<' :: '<' :: ' ' :: w

lemma match?_beforeOpening (w : Text) :
    ∀ r ∈ beforeOpening, r.match? (.start (openingLine w)) = none := by
  have hbefore : ∀ r ∈ beforeOpening, r ∈ rules .root
      ∧ (r.pattern.begins '<' = false ∨ r ∈ openingRules.take 1) := by decide
  intro r hr
  obtain ⟨hroot, hx | hopening⟩ := hbefore r hr
  · exact match?_eq_none_of_begins hroot rfl hx
  · obtain rfl := List.mem_singleton.mp hopening
    -- a here-string has a third angle bracket
    exact match?_eq_none hroot rfl

/-- The parts of the line: it has no quotes, and its tag is all that stands behind the blank. -/
lemma openingParts?_openingLine {w : Text} (hw : IsTag w) :
    openingParts? heredocOperators (openingLine w) = some ⟨['<', '<'], [' '], [], w, []⟩ := by
  have hword : w.takeWhile (IsTagChar ·) = w := by simpa using hw.chars
  obtain ⟨x, w', rfl⟩ := List.exists_cons_of_ne_nil hw.nonempty
  have hx : tagChar.mem x = true := (mem_tagChar x).mpr (hw.chars x List.mem_cons_self)
  have hblank : isBlank x = false := by
    have hapart : tagChar.Apart .blanks := by decide
    exact hapart.mem_eq_false hx
  have hquote : isTagQuote x = false := by
    have hapart : tagChar.Apart tagQuotes := by decide
    exact mem_tagQuotes ▸ hapart.mem_eq_false hx
  have hspace : isBlank ' ' = true := by decide
  simp [openingParts?, heredocOperators, openingWith?, behindOperator?, openingLine, Text.leading,
    hspace, hblank, hquote, hword]

/-- The line enters a here-document with its tag, and nothing is left of the line. -/
lemma firstMatch?_openingLine {w : Text} (hw : IsTag w) :
    ∃ m, shell.firstMatch? .root (.start (openingLine w)) = some (heredocOpening, m)
      ∧ heredocOpening.capturedTag m = some w ∧ m.stop.rest = [] := by
  obtain ⟨behind, hrules⟩ := exists_rootRules_eq
  have hmem : heredocOpening ∈ rules .root := by
    show heredocOpening ∈ rootRules
    simp [hrules]
  have hparts := openingParts?_openingLine hw
  have hmatch := match?_opening hmem rfl rfl rfl rfl takesOneOf_heredoc
    (c := .start (openingLine w)) (List.cons_ne_nil _ _)
  rw [show (Cursor.start (openingLine w)).rest = openingLine w from rfl, hparts] at hmatch
  refine ⟨_, Language.firstMatch?_of_rules hrules (match?_beforeOpening w) hmatch rfl, ?_, ?_⟩
  · exact capturedTag_matchFrom hparts
  · simp [OpeningParts.matchFrom, Cursor.behind, Cursor.start, openingLine]

end ShellSyntax.Shell

import Mathlib.Data.List.Basic
import Mathlib.Tactic.Common
import ShellSyntax.Proofs.Language.Overlap
import ShellSyntax.Proofs.Shell.Rules

/-!
The tokens of a line of shell text make up the line.

* `Language.FallsBack`: where no rule matches, the next character is plain text;
* `Language.IsShell.tokenizeLine_partitions`: whatever the text and the state it begins in, the
  tokens make up the line, no step faults, and each step gives the tokens of the match it found, or
  else one character of plain text.
-/

namespace ShellSyntax

namespace Language

/-- Where no rule matches there is a token of plain text, which is the next character. -/
def FallsBack (l : Language) (line : Text) (v : Visit) : Prop :=
  ∃ t x, l.tokensAt v = [t] ∧ t.start = v.place.offset ∧ t.kind = .plain ∧ t.text? line = some [x]

lemma fallsBack_of_none {l : Language} {line : Text} {v : Visit}
    (hplace : (Cursor.start line).Reaches v.place) (hrest : v.place.rest ≠ [])
    (h : l.firstMatch? v.state v.place = none) : l.FallsBack line v := by
  obtain ⟨x, rest, hx⟩ := List.exists_cons_of_ne_nil hrest
  refine ⟨.ofSpan (v.place.spanTo (v.place.past x rest)) .plain, x, ?_, rfl, rfl, ?_⟩
  · rw [tokensAt_eq hx, step_of_none h]
  · have htext : v.place.textTo (v.place.past x rest) = [x] :=
      Cursor.textTo_eq (by rw [hx]; rfl) (by simp [Cursor.past])
    show line.slice? _ = some [x]
    rw [← htext]
    exact hplace.slice? (.past hx)

namespace IsShell

variable {l : Language} {line : Text} {start : LineState} {v : Visit}

/-- The tokens of a line of shell text lead from its first place to its last. -/
lemma covers_tokenizeLine (hl : l.IsShell) (line : Text) (start : LineState) :
    Covers (.start line) (Cursor.start line).finish (l.tokenizeLine line start).tokens := by
  refine covers_tokenizeFrom (Nat.le_refl _) fun v _ r m hfound => ?_
  obtain ⟨hr, hm, -⟩ := firstMatch?_eq_some hfound
  rw [hl.rules_eq] at hr
  exact Shell.covers_tokensOf hr hm

/-- **The tokens of a line of shell text make up the line**: whatever the text and the state it
begins in, they tile it, and begin and end at characters. No rule faults on the way; and where none
matches, the token is plain text of one character. -/
theorem tokenizeLine_partitions (hl : l.IsShell) (line : Text) (start : LineState) :
    Partitions line (l.tokenizeLine line start).tokens
      ∧ (l.tokenizeLine line start).tokens = (l.visits line start).flatMap l.tokensAt
      ∧ ∀ v ∈ l.visits line start, l.Faultless line v
        ∧ (l.firstMatch? v.state v.place = none → l.FallsBack line v) := by
  refine ⟨(hl.covers_tokenizeLine line start).partitions, tokens_tokenizeFrom _ _ _, ?_⟩
  intro v hv
  obtain ⟨hplace, hrest⟩ := reaches_visitsFrom hv
  exact ⟨faultless hplace, fallsBack_of_none hplace hrest⟩

/-- A line of a here-document that opens a here-string behind a letter that no rule takes. -/
theorem tokenizeLine_partitions_hereString :
    let line := "é <<< 'tag'".toList
    let start : LineState := ⟨[⟨.heredoc, some "EOF".toList⟩]⟩
    shell.IsShell ∧ Partitions line (shell.tokenizeLine line start).tokens
      ∧ ∀ v ∈ shell.visits line start, shell.firstMatch? v.state v.place = none →
        shell.FallsBack line v := by
  have hshell : shell.IsShell := Or.inl rfl
  obtain ⟨hpartitions, -, hvisits⟩ := tokenizeLine_partitions hshell "é <<< 'tag'".toList
    ⟨[⟨.heredoc, some "EOF".toList⟩]⟩
  exact ⟨hshell, hpartitions, fun v hv => (hvisits v hv).2⟩

end IsShell

end Language

end ShellSyntax

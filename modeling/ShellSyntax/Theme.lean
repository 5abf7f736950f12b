import ShellSyntax.Token

/-!
Themes: the styles of token kinds.

* `Theme`: the kinds whose style is overridden;
* `Theme.set`, `Theme.styleFor`: overriding a style and looking one up.
-/

namespace ShellSyntax

/-- For each kind the style that replaces its default one, if any. -/
structure Theme where
  override : TokenKind → Option Style

namespace Theme

/-- The theme that overrides nothing. -/
def empty : Theme := ⟨fun _ => none⟩

/-- The theme with one more style replaced. -/
def set (t : Theme) (kind : TokenKind) (style : Style) : Theme :=
  ⟨fun k => if k = kind then some style else t.override k⟩

/-- The style of a kind. -/
def styleFor (t : Theme) (kind : TokenKind) : Style :=
  (t.override kind).getD kind.defaultStyle

@[ext] theorem ext {s t : Theme} (h : ∀ k, s.override k = t.override k) : s = t := by
  cases s; cases t; simpa using funext h

instance : DecidableEq Theme := fun s t =>
  decidable_of_iff (∀ k ∈ TokenKind.all, s.override k = t.override k)
    ⟨fun h => ext fun k => h k (TokenKind.mem_all k), fun h _ _ => h ▸ rfl⟩

theorem styleFor_set (t : Theme) (kind : TokenKind) (style : Style) (k : TokenKind) :
    (t.set kind style).styleFor k = if k = kind then style else t.styleFor k := by
  by_cases h : k = kind <;> simp [styleFor, set, h]

end Theme

end ShellSyntax
